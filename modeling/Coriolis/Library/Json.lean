import Coriolis.Library.Indexed
import Mathlib.Data.Rat.Defs

/-!
# JSON values

Values of any depth, and the rewriting of what dictionaries store under some of their keys. A
rewriting that makes its own results harmless is idempotent, and it hides the difference between
two values that agree except in what is rewritten.
-/

/-- A JSON value. A dictionary is the list of its entries. -/
inductive Json where
  | null
  | bool (b : Bool)
  | int (n : Int)
  | float (q : Rat)
  | str (s : String)
  | arr (items : List Json)
  | obj (fields : List (String × Json))

namespace Json

/-- The truth value of Python: everything but null, false, zero and what is empty. -/
def truthy : Json → Bool
  | .null => false
  | .bool b => b
  | .int n => n != 0
  | .float q => q != 0
  | .str s => s != ""
  | .arr items => !items.isEmpty
  | .obj fields => !fields.isEmpty

/-- The value of a number. A boolean of Python is one. -/
def number? : Json → Option Rat
  | .bool b => some (if b then 1 else 0)
  | .int n => some n
  | .float q => some q
  | _ => none

def isNull : Json → Bool
  | .null => true
  | _ => false

def isLeaf : Json → Bool
  | .arr _ | .obj _ => false
  | _ => true

/-- `d[key] = value` for a dictionary. -/
def set (key : String) (value : Json) : Json → Json
  | .obj fields =>
    if fields.any (·.1 == key) then
      .obj (fields.map fun field => if field.1 = key then (key, value) else field)
    else .obj (fields ++ [(key, value)])
  | json => json

lemma induct {motive : Json → Prop} (leaf : ∀ v, v.isLeaf → motive v)
    (arr : ∀ items, (∀ v ∈ items, motive v) → motive (.arr items))
    (obj : ∀ fields, (∀ e ∈ fields, motive e.2) → motive (.obj fields)) (v : Json) : motive v := by
  match v with
  | .arr items => exact arr items fun v _ => induct leaf arr obj v
  | .obj fields => exact obj fields fun e _ => induct leaf arr obj e.2
  | .null | .bool _ | .int _ | .float _ | .str _ => exact leaf _ rfl
termination_by sizeOf v
decreasing_by
  · have := List.sizeOf_lt_of_mem ‹_ ∈ items›
    simp
    omega
  · obtain ⟨k, v⟩ := e
    have := List.sizeOf_lt_of_mem ‹_ ∈ fields›
    simp at this ⊢
    omega

mutual

/-- Rewrites what is stored under keys: `f` says by what, or that the value is visited. -/
def rewrite (f : String → Json → Option Json) : Json → Json
  | .arr items => .arr (rewriteItems f items)
  | .obj fields => .obj (rewriteFields f fields)
  | v => v

def rewriteItems (f : String → Json → Option Json) : List Json → List Json
  | [] => []
  | v :: items => rewrite f v :: rewriteItems f items

def rewriteFields (f : String → Json → Option Json) : List (String × Json) → List (String × Json)
  | [] => []
  | (k, v) :: fields => (k, (f k v).getD (rewrite f v)) :: rewriteFields f fields

end

variable {f : String → Json → Option Json}

@[simp] lemma rewriteItems_eq (items : List Json) : rewriteItems f items = items.map (rewrite f) := by
  induction items <;> simp [rewriteItems, *]

@[simp] lemma rewriteFields_eq (fields : List (String × Json)) : rewriteFields f fields =
    fields.map fun e => (e.1, (f e.1 e.2).getD (rewrite f e.2)) := by
  induction fields <;> simp [rewriteFields, *]

lemma rewrite_of_isLeaf (h : v.isLeaf) : rewrite f v = v := by
  cases v <;> first | rfl | simp [isLeaf] at h

lemma rewrite_rewrite (hsome : ∀ k u r, f k u = some r → (f k r).getD (rewrite f r) = r)
    (hnone : ∀ k u, f k u = none → f k (rewrite f u) = none) (v : Json) :
    rewrite f (rewrite f v) = rewrite f v := by
  induction v using induct with
  | leaf v h => simp only [rewrite_of_isLeaf h]
  | arr items ih => simpa [rewrite] using ih
  | obj fields ih =>
    simp only [rewrite, rewriteFields_eq, List.map_map, obj.injEq, List.map_inj_left]
    intro e he
    cases h : f e.1 e.2 with
    | some r => simp [h, hsome _ _ _ h]
    | none => simp [h, hnone _ _ h, ih e he]

/-! ## Values that differ in one place -/

/-- The second value is the first with what is stored under one key replaced. -/
inductive Replaced (hidden : String → Json → Json → Prop) : Json → Json → Prop
  | here {k v w} (before after) : hidden k v w →
      Replaced hidden (.obj (before ++ (k, v) :: after)) (.obj (before ++ (k, w) :: after))
  | entry {k v w} (before after) : Replaced hidden v w →
      Replaced hidden (.obj (before ++ (k, v) :: after)) (.obj (before ++ (k, w) :: after))
  | item {v w} (before after) : Replaced hidden v w →
      Replaced hidden (.arr (before ++ v :: after)) (.arr (before ++ w :: after))

lemma Replaced.rewrite_eq {hidden : String → Json → Json → Prop} (hkey : ∀ k v w,
    rewrite f v = rewrite f w ∨ hidden k v w →
      (f k v).getD (rewrite f v) = (f k w).getD (rewrite f w)) (h : Replaced hidden v w) :
    rewrite f v = rewrite f w := by
  induction h with
  | here before after h => simp [rewrite, hkey _ _ _ (.inr h)]
  | entry before after _ ih => simp [rewrite, hkey _ _ _ (.inl ih)]
  | item before after _ ih => simp [rewrite, ih]

/-! ## Places -/

/-- An entry of a dictionary at any depth. -/
inductive Within (e : String × Json) : Json → Prop
  | here {fields} : e ∈ fields → Within e (.obj fields)
  | entry {fields e'} : e' ∈ fields → Within e e'.2 → Within e (.obj fields)
  | item {items v} : v ∈ items → Within e v → Within e (.arr items)

/-- A value that is no container, at any depth. -/
inductive Leaf (leaf : Json) : Json → Prop
  | self : leaf.isLeaf → Leaf leaf leaf
  | entry {fields e} : e ∈ fields → Leaf leaf e.2 → Leaf leaf (.obj fields)
  | item {items v} : v ∈ items → Leaf leaf v → Leaf leaf (.arr items)

lemma Within.leaf {leaf v : Json} (h : Within e v) (hleaf : Leaf leaf e.2) :
    Leaf leaf v := by
  induction h with
  | here hmem => exact .entry hmem hleaf
  | entry hmem _ ih => exact .entry hmem ih
  | item hmem _ ih => exact .item hmem ih

lemma Within.of_rewrite (h : Within e (rewrite f v)) :
    (∃ k u r, f k u = some r ∧ Within e (.obj [(k, r)])) ∨
      ∃ u, f e.1 u = none ∧ e.2 = rewrite f u := by
  induction v using induct with
  | leaf v hleaf =>
    rw [rewrite_of_isLeaf hleaf] at h
    cases h <;> simp [isLeaf] at hleaf
  | arr items ih =>
    simp only [rewrite, rewriteItems_eq] at h
    cases h with
    | item hmem h =>
      obtain ⟨u, hu, rfl⟩ := List.mem_map.mp hmem
      exact ih u hu h
  | obj fields ih =>
    simp only [rewrite, rewriteFields_eq] at h
    cases h with
    | here hmem =>
      obtain ⟨⟨k, u⟩, hu, rfl⟩ := List.mem_map.mp hmem
      cases hf : f k u with
      | some r => exact .inl ⟨k, u, r, hf, .here (by simp)⟩
      | none => exact .inr ⟨u, hf, by simp⟩
    | entry hmem h =>
      obtain ⟨⟨k, u⟩, hu, rfl⟩ := List.mem_map.mp hmem
      cases hf : f k u with
      | some r => exact .inl ⟨k, u, r, hf, .entry List.mem_cons_self (by simpa [hf] using h)⟩
      | none => exact ih _ hu (by simpa [hf] using h)

lemma rewrite_eq_self (h : ∀ e, Within e v → f e.1 e.2 = none) : rewrite f v = v := by
  induction v using induct with
  | leaf v hleaf => exact rewrite_of_isLeaf hleaf
  | arr items ih =>
    simp only [rewrite, rewriteItems_eq]
    rw [List.map_congr_left fun v hv => ih v hv fun e he => h e (.item hv he), List.map_id']
  | obj fields ih =>
    simp only [rewrite, rewriteFields_eq]
    rw [List.map_congr_left (g := id) fun e he => by
      rw [h e (.here he), ih e he fun e' he' => h e' (.entry he he')]
      rfl, List.map_id]

/-- A step into a container. -/
inductive Step where
  | key (k : String)
  | index (i : Nat)

def field? (k : String) (fields : List (String × Json)) : Option Json :=
  (fields.find? (·.1 == k)).map (·.2)

def get? : List Step → Json → Option Json
  | [], v => some v
  | .key k :: path, .obj fields => (field? k fields).bind (get? path)
  | .index i :: path, .arr items => items[i]?.bind (get? path)
  | _ :: _, _ => none

@[simp] lemma field?_cons :
    field? k ((k', v) :: fields) = if k' = k then some v else field? k fields := by
  by_cases h : k' = k
  · simp [field?, h]
  · simp [field?, h, beq_false_of_ne h]

lemma field?_append :
    field? k (fields ++ fields') = (field? k fields).or (field? k fields') := by
  simp [field?, List.find?_append, Option.map_or]

/-- The entries of two dictionaries with the same keys are related key by key. -/
lemma rel_field? {R : String → Json → Json → Prop}
    (h : List.Forall₂ (fun e e' => e'.1 = e.1 ∧ R e.1 e.2 e'.2) fields fields') (k : String) :
    Option.Rel (R k) (field? k fields) (field? k fields') := by
  induction h with
  | nil => exact .none
  | @cons e e' _ _ he _ ih =>
    obtain ⟨k', v⟩ := e
    obtain ⟨_, w⟩ := e'
    obtain ⟨rfl, hR⟩ := he
    rw [field?_cons, field?_cons]
    split
    · rename_i hk
      exact .some (hk ▸ hR)
    · exact ih

/-- A container without anything in it. -/
def isVoid : Json → Bool
  | .arr items => items.isEmpty
  | .obj fields => fields.isEmpty
  | .str s => s.isEmpty
  | _ => false

lemma get?_of_isVoid (h : v.isVoid) : get? (s :: path) v = none := by
  cases v <;> cases s <;> simp_all [isVoid, get?, field?]

/-! ## Loops over a value -/

/-- `items[i]`. A truth value is an index, and a negative index counts from the end. -/
def item (items : List Json) (i : Json) : Except String Json :=
  match i with
  | .bool b => (items[b.toNat]?).elim (.error "IndexError") .ok
  | .int n =>
    let i := if n < 0 then n + items.length else n
    if i < 0 then .error "IndexError" else (items[i.toNat]?).elim (.error "IndexError") .ok
  | _ => .error "TypeError"

def value (fields : List (String × Json)) (k : String) : Except String Json :=
  (field? k fields).elim (.error "KeyError") .ok

/-- What a loop over a value meets: each key, and what the value has under it. The keys of a list
are its items, and those of a text its characters, which are no indices of it. -/
def keyed : Json → Except String (List (Json × Except String Json))
  | .obj fields => .ok (fields.map fun e => (.str e.1, value fields e.1))
  | .arr items => .ok (items.map fun i => (i, item items i))
  | .str s => .ok (s.toList.map fun c => (.str (String.singleton c), .error "TypeError"))
  | _ => .error "TypeError"

/-! ## Places -/

/-- Two values have the same at each place that is neither on the way to a hidden place nor
behind one. -/
def Off (hidden : List Step → Prop) (v w : Json) : Prop :=
  ∀ path, (∀ h, hidden h → ¬ h <+: path ∧ ¬ path <+: h) → get? path w = get? path v

lemma Off.of_nil {hidden : List Step → Prop} (h : hidden []) (v w : Json) : Off hidden v w :=
  fun _ hpath => absurd List.nil_prefix (hpath [] h).1

lemma Off.refl (hidden : List Step → Prop) (v : Json) : Off hidden v v := fun _ _ => rfl

lemma Off.cons {hidden : List Step → Prop} (h : Off (fun path => hidden (s :: path)) v w)
    (hpath : ∀ h, hidden h → ¬ h <+: s :: path ∧ ¬ s :: path <+: h) : get? path w = get? path v :=
  h path fun h hh => by simpa using hpath _ hh

lemma Off.obj {hidden : List Step → Prop} (hsome : ∃ h, hidden h)
    (h : ∀ k, Option.Rel (Off fun path => hidden (.key k :: path))
      (field? k fields) (field? k fields')) : Off hidden (.obj fields) (.obj fields')
  | [], hpath => absurd List.nil_prefix (hpath _ hsome.choose_spec).2
  | .index _ :: _, _ => rfl
  | .key k :: path, hpath => by
    have hk := h k
    simp only [get?]
    generalize field? k fields = v, field? k fields' = w at hk ⊢
    cases hk with
    | none => rfl
    | some h => exact h.cons hpath

lemma Off.void {hidden : List Step → Prop} (hsome : ∃ h, hidden h) (hv : v.isVoid) (hw : w.isVoid) :
    Off hidden v w
  | [], hpath => absurd List.nil_prefix (hpath _ hsome.choose_spec).2
  | _ :: _, _ => by rw [get?_of_isVoid hv, get?_of_isVoid hw]

lemma Off.arr {hidden : List Step → Prop} (hsome : ∃ h, hidden h)
    (h : List.Forall₂ (fun v w => ∀ i, Off (fun path => hidden (.index i :: path)) v w)
      items items') : Off hidden (.arr items) (.arr items')
  | [], hpath => absurd List.nil_prefix (hpath _ hsome.choose_spec).2
  | .key _ :: _, _ => rfl
  | .index i :: path, hpath => by
    have hi := Indexed.rel_getElem? h i
    simp only [get?]
    generalize items[i]? = v, items'[i]? = w at hi ⊢
    cases hi with
    | none => rfl
    | some h => exact (h i).cons hpath

/-- The second value is the first with what is at a place replaced. -/
inductive ReplacedAt : List Step → Json → Json → Prop
  | here (v w) : ReplacedAt [] v w
  | key {path k v w} (before after) : ReplacedAt path v w → ReplacedAt (.key k :: path)
      (.obj (before ++ (k, v) :: after)) (.obj (before ++ (k, w) :: after))
  | index {path v w} (before after) : ReplacedAt path v w →
      ReplacedAt (.index before.length :: path) (.arr (before ++ v :: after))
        (.arr (before ++ w :: after))

lemma get?_rewrite (h : ∀ k, .key k ∈ path → ∀ v, f k v = none) (v : Json) :
    get? path (rewrite f v) = (get? path v).map (rewrite f) := by
  induction path generalizing v with
  | nil => rfl
  | cons s path ih =>
    have ih := ih fun k hk => h k (List.mem_cons_of_mem _ hk)
    cases s with
    | key k =>
      cases v with
      | obj fields =>
        simp only [rewrite, rewriteFields_eq, get?, field?, List.find?_map, Function.comp_def]
        cases hfind : fields.find? (·.1 == k) with
        | none => rfl
        | some e =>
          have hk : e.1 = k := by simpa using List.find?_some hfind
          simp [hk, h k List.mem_cons_self, ih]
      | _ => rfl
    | index i =>
      cases v with
      | arr items =>
        simp only [rewrite, rewriteItems_eq, get?, List.getElem?_map]
        cases items[i]? <;> simp [ih]
      | _ => rfl

end Json
