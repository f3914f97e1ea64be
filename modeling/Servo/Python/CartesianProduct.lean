import Servo.Python.JsonDumps

/-! # The Product of Dimensions

    `MultiPartition._cartesian_product` assigns the keys of a dimension in one
    dictionary, which all calls share, and copies it where no dimension is
    left. The dictionaries are objects with addresses here, so that a copy is
    told from the dictionary that goes on changing.
-/

namespace Servo.Python

/-- The objects that have been made, and the list of the results by their addresses. -/
structure ProductState where
  heap : List Dict
  result : List Nat

namespace ProductState

variable (st : ProductState) (current : Nat)

/-- `current[dim_name] = key`. -/
def assign (dim_name key : String) : ProductState :=
  { st with heap := st.heap.modify current fun d => OrderedMap.set d dim_name key }

/-- `result.append(current.copy())`. -/
def append_copy : ProductState where
  heap := st.heap ++ [st.heap.getD current []]
  result := st.result ++ [st.heap.length]

/-- What the results are now. -/
def contents : List Dict := st.result.map fun address => st.heap.getD address []

end ProductState

/-- `_cartesian_product`, from the dimension that is next. -/
def cartesian_product (current : Nat) : List (String × List String) → ProductState → ProductState
  | [], st => st.append_copy current
  | (dim_name, keys) :: dims, st =>
    keys.foldl (fun st key => cartesian_product current dims (st.assign current dim_name key)) st

/-- `_get_multi_keys`, from the keys of the dimensions: the objects and the list of the results. -/
def get_multi_keys (dim_keys : List (String × List String)) : ProductState :=
  if dim_keys = [] then ⟨[], []⟩ else cartesian_product 0 dim_keys ⟨[[]], []⟩

/-! ### What the product is -/

/-- The combinations, those with the first key of the first dimension first. -/
def product : List (String × List String) → List Dict
  | [] => [[]]
  | (dim_name, keys) :: dims =>
    keys.flatMap fun key => (product dims).map fun d => (dim_name, key) :: d

/-- A combination has one key of each dimension. -/
def IsCombination (dims : List (String × List String)) (d : Dict) : Prop :=
  List.Forall₂ (fun dim e => e.1 = dim.1 ∧ e.2 ∈ dim.2) dims d

theorem mem_product {dims : List (String × List String)} {d : Dict} :
    d ∈ product dims ↔ IsCombination dims d := by
  induction dims generalizing d with
  | nil => simp [product, IsCombination]
  | cons dim dims ih =>
    obtain ⟨dim_name, keys⟩ := dim
    simp only [product, List.mem_flatMap, List.mem_map, ih, IsCombination]
    constructor
    · intro h
      obtain ⟨key, hkey, d', hd', rfl⟩ := h
      exact .cons ⟨rfl, hkey⟩ hd'
    · intro h
      cases h with
      | @cons _ e _ d' he hd' =>
        obtain ⟨hname, hkey⟩ := he
        have hname : e.1 = dim_name := hname
        exact ⟨e.2, hkey, d', hd', by rw [← hname]⟩

theorem IsCombination.names {dims : List (String × List String)} {d : Dict}
    (h : IsCombination dims d) : d.names = dims.map Prod.fst := by
  induction h with
  | nil => rfl
  | cons he _ ih =>
    rw [Dict.names] at ih
    rw [Dict.names, List.map_cons, List.map_cons, he.1, ih]

theorem product_nodup {dims : List (String × List String)} (h : ∀ dim ∈ dims, dim.2.Nodup) :
    (product dims).Nodup := by
  induction dims with
  | nil => simp [product]
  | cons dim dims ih =>
    obtain ⟨dim_name, keys⟩ := dim
    obtain ⟨hkeys, hdims⟩ := List.forall_mem_cons.mp h
    rw [product, List.nodup_flatMap]
    constructor
    · intro key _
      apply (ih hdims).map
      exact List.cons_injective
    · refine hkeys.imp fun {key key'} hne => ?_
      intro d hd hd'
      obtain ⟨_, -, rfl⟩ := List.mem_map.mp hd
      obtain ⟨_, -, heq⟩ := List.mem_map.mp hd'
      rw [List.cons.injEq, Prod.mk.injEq] at heq
      exact hne heq.1.2.symm

theorem product_eq_nil_iff {dims : List (String × List String)} :
    product dims = [] ↔ ∃ dim ∈ dims, dim.2 = [] := by
  induction dims with
  | nil => simp [product]
  | cons dim dims ih =>
    rw [product, List.flatMap_eq_nil_iff]
    simp only [List.map_eq_nil_iff, ih, List.mem_cons, exists_eq_or_imp]
    constructor
    · intro h
      cases hkeys : dim.2 with
      | nil => exact .inl rfl
      | cons key keys => exact .inr (h key (by rw [hkeys]; exact List.mem_cons_self))
    · intro h key hkey
      refine h.resolve_left fun hnil => ?_
      rw [hnil] at hkey
      cases hkey

/-! ### What the product determines -/

/-- The dimensions have the same names, and there are no more keys in the second. -/
def Shrunk (dims dims' : List (String × List String)) : Prop :=
  List.Forall₂ (fun dim dim' => dim.1 = dim'.1 ∧ dim'.2.length ≤ dim.2.length) dims dims'

theorem length_product_cons (dim : String × List String) (dims : List (String × List String)) :
    (product (dim :: dims)).length = dim.2.length * (product dims).length := by
  rw [product, List.length_flatMap]
  simp

theorem Shrunk.length_product_le {dims dims' : List (String × List String)}
    (h : Shrunk dims dims') : (product dims').length ≤ (product dims).length := by
  induction h with
  | nil => exact le_refl _
  | cons hdim _ ih =>
    rw [length_product_cons, length_product_cons]
    exact Nat.mul_le_mul hdim.2 ih

/-- The combinations with one key of the first dimension. -/
def block (dim_name key : String) (rest : List Dict) : List Dict :=
  rest.map fun d => (dim_name, key) :: d

theorem product_cons (dim_name : String) (keys : List String) (dims : List (String × List String)) :
    product ((dim_name, keys) :: dims) =
      keys.flatMap fun key => block dim_name key (product dims) := rfl

theorem block_inj {dim_name key key' : String} {rest rest' : List Dict} (hne : rest ≠ [])
    (h : block dim_name key rest = block dim_name key' rest') : key = key' ∧ rest = rest' := by
  have htail := congrArg (List.map List.tail) h
  simp only [block, List.map_map] at htail
  have hrest : rest = rest' := by simpa [Function.comp_def] using htail
  subst hrest
  obtain ⟨d, hd⟩ := List.exists_mem_of_ne_nil rest hne
  have heq := List.map_inj_left.mp h d hd
  rw [List.cons.injEq, Prod.mk.injEq] at heq
  exact ⟨heq.1.2, rfl⟩

theorem blocks_inj {dim_name : String} {rest : List Dict} (hne : rest ≠ [])
    {keys keys' : List String} (h : keys.flatMap (fun key => block dim_name key rest) =
      keys'.flatMap fun key => block dim_name key rest) : keys = keys' := by
  have hblock : ∀ key, block dim_name key rest ≠ [] := fun key hnil =>
    hne (List.map_eq_nil_iff.mp hnil)
  induction keys generalizing keys' with
  | nil =>
    cases keys' with
    | nil => rfl
    | cons key' keys' =>
      exact absurd (List.flatMap_eq_nil_iff.mp h.symm key' List.mem_cons_self) (hblock key')
  | cons key keys ih =>
    cases keys' with
    | nil => exact absurd (List.flatMap_eq_nil_iff.mp h key List.mem_cons_self) (hblock key)
    | cons key' keys' =>
      rw [List.flatMap_cons, List.flatMap_cons] at h
      obtain ⟨hfirst, hrest⟩ := List.append_inj h (by simp [block])
      rw [(block_inj hne hfirst).1, ih hrest]

/-- **The product determines the dimensions**, where none is empty and none has grown. -/
theorem Shrunk.product_inj {dims dims' : List (String × List String)} (h : Shrunk dims dims')
    (hne : ∀ dim' ∈ dims', dim'.2 ≠ []) (heq : product dims = product dims') : dims = dims' := by
  induction h with
  | nil => rfl
  | @cons dim dim' dims dims' hdim hdims ih =>
    obtain ⟨hkeys, hrest⟩ := List.forall_mem_cons.mp hne
    obtain ⟨dim_name, keys⟩ := dim
    obtain ⟨dim_name', keys'⟩ := dim'
    obtain ⟨hname, hle⟩ := hdim
    have hname : dim_name = dim_name' := hname
    have hle : keys'.length ≤ keys.length := hle
    have hkeys : keys' ≠ [] := hkeys
    subst hname
    have hproduct : product dims' ≠ [] := by
      rw [Ne, product_eq_nil_iff, not_exists]
      exact fun dim' h => hrest dim' h.1 h.2
    -- neither the keys nor the rest of the product can be fewer
    have hlength : (product dims).length = (product dims').length := by
      have hsum : keys.length * (product dims).length = keys'.length * (product dims').length := by
        rw [← length_product_cons (dim_name, keys), heq, length_product_cons]
      have hless := Shrunk.length_product_le hdims
      have hpos := List.length_pos_iff.mpr hkeys
      by_contra hne
      have hlt : keys'.length * (product dims').length < keys'.length * (product dims).length :=
        Nat.mul_lt_mul_of_pos_left (by omega) hpos
      have hmul : keys'.length * (product dims).length ≤ keys.length * (product dims).length :=
        Nat.mul_le_mul_right _ hle
      omega
    rw [product_cons, product_cons] at heq
    have hsame : product dims = product dims' := by
      cases keys' with
      | nil => exact absurd rfl hkeys
      | cons key' keys' =>
        cases keys with
        | nil => simp at hle
        | cons key keys =>
          rw [List.flatMap_cons, List.flatMap_cons] at heq
          obtain ⟨hfirst, -⟩ := List.append_inj heq (by simp [block, hlength])
          apply (block_inj ?_ hfirst).2
          intro hnil
          rw [hnil, List.length_nil] at hlength
          exact hproduct (List.length_eq_zero_iff.mp hlength.symm)
    rw [hsame] at heq
    rw [blocks_inj hproduct heq, ih hrest hsame]

/-! ### The dictionary that is shared -/

/-- **What the recursion does**: the names that are assigned in the shared dictionary are those of
    the dimensions before, and perhaps, from turns before, some of the dimensions after. -/
theorem cartesian_product_eq {dims : List (String × List String)} {front stale : Dict}
    {copies : List Dict} {result : List Nat} (hnames : (front.names ++ dims.map Prod.fst).Nodup)
    (hstale : stale.names <+: dims.map Prod.fst) :
    ∃ stale' : Dict, stale'.names <+: dims.map Prod.fst ∧
      cartesian_product 0 dims ⟨(front ++ stale) :: copies, result⟩ =
        ⟨(front ++ stale') :: (copies ++ (product dims).map (front ++ ·)),
          result ++ List.range' (copies.length + 1) (product dims).length⟩ := by
  induction dims generalizing front stale copies result with
  | nil =>
    have hempty : stale = [] := by simpa [Dict.names] using hstale
    subst hempty
    exact ⟨[], hstale, by simp [cartesian_product, ProductState.append_copy, product]⟩
  | cons dim dims ih =>
    obtain ⟨dim_name, keys⟩ := dim
    simp only [List.map_cons] at hnames hstale ⊢
    rw [cartesian_product, product]
    have hdims : ∀ key, ((front ++ [(dim_name, key)]).names ++ dims.map Prod.fst).Nodup := by
      intro key
      simpa [Dict.names] using hnames
    have hfresh : dim_name ∉ front.map Prod.fst := by
      intro hmem
      exact (List.nodup_append.mp hnames).2.2 dim_name hmem dim_name List.mem_cons_self rfl
    -- the induction is on the keys of the dimension that are left
    induction keys generalizing stale copies result with
    | nil => exact ⟨stale, hstale, by simp⟩
    | cons key keys ihkeys =>
      -- the key is assigned, over that of an earlier turn
      obtain ⟨rest, hrest, hset⟩ : ∃ rest : Dict, rest.names <+: dims.map Prod.fst ∧
          OrderedMap.set (front ++ stale) dim_name key = (front ++ [(dim_name, key)]) ++ rest := by
        cases stale with
        | nil =>
          refine ⟨[], List.nil_prefix, ?_⟩
          rw [List.append_nil, List.append_nil, OrderedMap.set_of_notMem hfresh]
        | cons e stale =>
          obtain ⟨name, old⟩ := e
          rw [Dict.names, List.map_cons, List.cons_prefix_cons] at hstale
          obtain ⟨rfl, hstale⟩ := hstale
          refine ⟨stale, hstale, ?_⟩
          rw [OrderedMap.set_at hfresh, List.append_assoc]
          rfl
      have hassign : ProductState.assign ⟨(front ++ stale) :: copies, result⟩ 0 dim_name key =
          ⟨((front ++ [(dim_name, key)]) ++ rest) :: copies, result⟩ := by
        rw [← hset]
        rfl
      obtain ⟨turn, hturn, heq⟩ := @ih (front ++ [(dim_name, key)]) rest copies result (hdims key)
        hrest
      obtain ⟨last, hlast, heq'⟩ := @ihkeys ((dim_name, key) :: turn)
        (copies ++ (product dims).map (front ++ [(dim_name, key)] ++ ·))
        (result ++ List.range' (copies.length + 1) (product dims).length)
        (by simpa [Dict.names] using hturn)
      refine ⟨last, hlast, ?_⟩
      have hassoc : (front ++ [(dim_name, key)]) ++ turn = front ++ (dim_name, key) :: turn := by
        simp
      rw [List.foldl_cons, hassign, heq, hassoc, heq']
      simp [Nat.add_right_comm]

/-- **The results are the product**, in its order. Each of them is an object of its own, and none
    is the dictionary that is shared. -/
theorem get_multi_keys_spec {dims : List (String × List String)} (hne : dims ≠ [])
    (hnames : (dims.map Prod.fst).Nodup) :
    (get_multi_keys dims).contents = product dims ∧ (get_multi_keys dims).result.Nodup ∧
      0 ∉ (get_multi_keys dims).result := by
  obtain ⟨stale, -, heq⟩ := @cartesian_product_eq dims [] [] [] []
    (by simpa [Dict.names] using hnames) List.nil_prefix
  have heap : (product dims).map (([] : Dict) ++ ·) = product dims := by simp
  rw [List.length_nil, List.nil_append, List.nil_append, List.nil_append, List.nil_append,
    heap] at heq
  rw [get_multi_keys, if_neg hne, heq]
  refine ⟨?_, List.nodup_range', ?_⟩
  · apply List.ext_getElem
    · simp [ProductState.contents]
    · intro i h h'
      simp [ProductState.contents, Nat.add_comm 1 i, List.getElem?_eq_getElem h']
  · intro hmem
    have hle := (List.mem_range'_1.mp hmem).1
    omega

end Servo.Python
