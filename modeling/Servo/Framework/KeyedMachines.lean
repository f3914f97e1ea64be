import Servo.Framework.OrderedMap

/-! # Machines That Are Made on Demand

    A map holds one machine for each key. A machine is made when its key is fed
    for the first time, and then fed that input. Feeding one key leaves the
    machines of the other keys as they are. So what the machine of a key
    answers is what a machine would answer that is alone, and only those keys
    have machines that have been fed.
-/

namespace KeyedMachines

variable {κ σ ι ο : Type} [DecidableEq κ]

/-- A machine that answers its inputs, and how it is made for its first one. -/
structure Machine (σ ι ο : Type) where
  start : ι → σ
  step : σ → ι → ο × σ

variable (m : Machine σ ι ο)

/-- A machine that may have to be made first. -/
def step_or_start (s : Option σ) (i : ι) : ο × σ := m.step (s.getD (m.start i)) i

/-- The answers of one machine to its inputs. -/
def alone : Option σ → List ι → List ο
  | _, [] => []
  | s, i :: is => (step_or_start m s i).1 :: alone (some (step_or_start m s i).2) is

/-- Feed the machine of a key. -/
def feed (map : List (κ × σ)) (k : κ) (i : ι) : ο × List (κ × σ) :=
  ((step_or_start m (map.lookup k) i).1,
    OrderedMap.set map k (step_or_start m (map.lookup k) i).2)

variable {m}

theorem alone_nil (s : Option σ) : alone m s [] = [] := rfl

theorem alone_cons (s : Option σ) (i : ι) (is : List ι) :
    alone m s (i :: is) = (step_or_start m s i).1 :: alone m (some (step_or_start m s i).2) is :=
  rfl

theorem feed_fst (map : List (κ × σ)) (k : κ) (i : ι) :
    (feed m map k i).1 = (step_or_start m (map.lookup k) i).1 := rfl

theorem lookup_feed_self (map : List (κ × σ)) (k : κ) (i : ι) :
    (feed m map k i).2.lookup k = some (step_or_start m (map.lookup k) i).2 := by
  rw [feed, OrderedMap.lookup_set, if_pos rfl]

/-- The machines of the other keys are left as they are. -/
theorem lookup_feed_of_ne (map : List (κ × σ)) {k k' : κ} (hne : k' ≠ k) (i : ι) :
    (feed m map k i).2.lookup k' = map.lookup k' := by
  rw [feed, OrderedMap.lookup_set, if_neg hne]

theorem mem_keys_feed (map : List (κ × σ)) (k k' : κ) (i : ι) :
    k' ∈ (feed m map k i).2.map Prod.fst ↔ k' ∈ map.map Prod.fst ∨ k' = k :=
  OrderedMap.mem_keys_set

theorem nodup_feed {map : List (κ × σ)} (h : (map.map Prod.fst).Nodup) (k : κ) (i : ι) :
    ((feed m map k i).2.map Prod.fst).Nodup :=
  OrderedMap.nodup_set h k _

end KeyedMachines
