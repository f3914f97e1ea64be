import Servo.Framework.System

/-! # Projecting Runs

    A system that contains another one: each step of the whole is a step of
    the part, or leaves the part as it is. Then a run of the whole, seen from
    the part, is a run of the part, and what holds along all runs of the part
    holds along the runs of the whole.
-/

namespace LTS

universe u v u' v'

variable {State : Type u} {Label : Type v} {State' : Type u'} {Label' : Type v'}

/-- The steps of a run that are steps of the part: `part` is the state of the part, and `label`
    the label under which it takes a step, if it does. -/
def project (part : State → State') (label : Step State Label → Option Label') :
    List (Step State Label) → List (Step State' Label')
  | [] => []
  | st :: tr =>
    match label st with
    | some l => ⟨part st.pre, l, part st.post⟩ :: project part label tr
    | none => project part label tr

/-- **Projection rule**: if each step is a step of the part or leaves it unchanged, then runs
    project to runs. -/
theorem Run.project {sys : System State Label} {sys' : System State' Label'}
    {part : State → State'} {label : Step State Label → Option Label'}
    (hinit : ∀ s, sys.init s → sys'.init (part s))
    (hstep : ∀ s l s' l', sys.next s l = some s' → label ⟨s, l, s'⟩ = some l' →
      sys'.next (part s) l' = some (part s'))
    (hstutter : ∀ s l s', sys.next s l = some s' → label ⟨s, l, s'⟩ = none → part s' = part s)
    {tr : List (Step State Label)} {s : State} (h : Run sys tr s) :
    Run sys' (LTS.project part label tr) (part s) := by
  induction h with
  | init h => exact .init (hinit _ h)
  | step l h hs ih =>
    unfold LTS.project
    split
    · next l' hlabel => exact .step l' ih (hstep _ l _ l' hs hlabel)
    · next hlabel =>
      rw [hstutter _ l _ hs hlabel]
      exact ih

end LTS
