import Mathlib.Data.List.DropRight
import Mathlib.Data.List.Forall2
import Mathlib.Data.List.Infix
import Mathlib.Data.List.Pairwise

/-!
# Routes

A mapper answers the path and the method of a request with a controller, an action and the values
of variables. How it works is not known here, only what its documentation says of the routes that
it was given (`Documented`): an answer comes from a route whose template the path has, segment by
segment, and there is an answer where the path certainly has the template of a route.

So what a mapper does with the paths of a given ending is decided by the last parts of the
templates, and two routes have one path only if their templates can be unified (`unifiable`).
-/

namespace Routing

abbrev Text := List Char

/-- A part of a template: a fixed segment, or a variable. The values of a restricted variable have
a given form. -/
inductive Part where
  | literal (text : String)
  | var (name : String) (restricted : Bool)
  deriving DecidableEq, Repr

instance : Coe String Part := ⟨.literal⟩

abbrev Part.param (name : String) : Part := .var name false

def Part.isVar : Part → Bool
  | .literal _ => false
  | .var .. => true

def Part.isRestricted : Part → Bool
  | .literal _ => false
  | .var _ restricted => restricted

abbrev Args := List (String × Text)

/-- The methods that a route is for. A text is searched for the method. -/
inductive Methods where
  | one (method : String)
  | within (text : String)
  deriving DecidableEq, Repr

def Methods.accepts : Methods → String → Bool
  | .one method, m => m == method
  | .within text, m => decide (m.toList <:+: text.toList)

structure Route (κ : Type*) where
  parts : List Part
  methods : Methods
  controller : κ
  action : String
  deriving DecidableEq, Repr

/-- The routes of a collection and its members. Beside the usual actions there are those of
`collection` and `member`, each with its method. -/
def resource {κ : Type*} (path : List Part) (controller : κ)
    (collection member : List (String × String)) : List (Route κ) :=
  let route (path : List Part) (method action : String) : Route κ :=
    ⟨path, .one method, controller, action⟩
  let id := Part.var "id" true
  (collection.map fun (action, method) => route (path ++ [.literal action]) method action) ++
  [route path "POST" "create", route path "GET" "index",
    route (path ++ [.literal "new"]) "GET" "new"] ++
  ((member ++ [("edit", "GET")]).map fun (action, method) =>
    route (path ++ [id, .literal action]) method action) ++
  [route (path ++ [id]) "PUT" "update", route (path ++ [id]) "DELETE" "delete",
    route (path ++ [id]) "GET" "show"]

def connect {κ : Type*} (path : List Part) (methods : Methods) (controller : κ)
    (action : String) : Route κ :=
  ⟨path, methods, controller, action⟩

/-! ## What is documented -/

def segments (path : Text) : Option (List Text) :=
  match path.splitOn '/' with
  | [] :: segs => some segs
  | _ => none

/-- A text of a form that no restriction excludes. -/
def plain (s : Text) : Bool := s.all fun c => c.isAlphanum || c = '_' || c = '.' || c = '-'

/-- The segment certainly is one for the part. -/
def Part.Suits : Part → Text → Prop
  | .literal text, s => s = text.toList
  | .var _ restricted, s => s ≠ [] ∧ (restricted = true → plain s = true)

/-- The segment is the one of the part, with the value of its variable. -/
def Part.Takes (args : Args) : Part → Text → Prop
  | .literal text, s => s = text.toList
  | .var name _, s => s ≠ [] ∧ args.lookup name = some s

def names (parts : List Part) : List String :=
  parts.filterMap fun
    | .literal _ => none
    | .var name _ => some name

/-- What a path may have at its end to name a format. -/
def extensions : List Text := [[], ".json".toList, ".xml".toList]

/-- The path and the method are ones for the route, with these values of its variables. -/
def Route.Fits {κ : Type*} (r : Route κ) (method : String) (path : Text) (args : Args) : Prop :=
  r.methods.accepts method = true ∧ (∀ name ∉ names r.parts, args.lookup name = none) ∧
    ∃ init value, ∃ ext ∈ extensions, segments path = some (init ++ [value ++ ext]) ∧
      List.Forall₂ (Part.Takes args) r.parts (init ++ [value])

/-- A mapper that was given its routes. -/
abbrev Mapper (κ : Type*) := String → Text → Option (κ × String × Args)

/-- The mapper does with the routes what is documented. Nothing is said of paths that end in a
newline. -/
structure Documented {κ : Type*} (routes : List (Route κ)) (mapper : Mapper κ) : Prop where
  sound : ∀ method path controller action args, path.getLast? ≠ some '\n' →
    mapper method path = some (controller, action, args) →
      ∃ r ∈ routes, r.controller = controller ∧ r.action = action ∧ r.Fits method path args
  complete : ∀ r ∈ routes, ∀ method path segs, r.methods = .one method →
    segments path = some segs → List.Forall₂ Part.Suits r.parts segs →
      ∃ answer, mapper method path = some answer

section

variable {κ : Type*} {r r' : Route κ} {routes : List (Route κ)} {parts parts' : List Part}
  {args args' : Args} {segs : List Text} {method : String} {path s s' : Text}

lemma takes_cons (hname : name ∉ names parts) (h : List.Forall₂ (Part.Takes args) parts segs) :
    List.Forall₂ (Part.Takes ((name, s) :: args)) parts segs := by
  induction h with
  | nil => exact .nil
  | @cons p s parts segs hp _ ih =>
    cases p with
    | literal text => exact .cons hp (ih hname)
    | var other restricted =>
      obtain ⟨hne, hname⟩ := not_or.mp (mt List.mem_cons.mpr hname)
      refine .cons ⟨hp.1, ?_⟩ (ih hname)
      rw [List.lookup_cons, beq_false_of_ne (Ne.symm hne)]
      exact hp.2

lemma exists_takes (hnames : (names parts).Nodup) (h : List.Forall₂ Part.Suits parts segs) :
    ∃ args : Args, (∀ name ∉ names parts, args.lookup name = none) ∧
      List.Forall₂ (Part.Takes args) parts segs := by
  induction h with
  | nil => exact ⟨[], fun _ _ => rfl, .nil⟩
  | @cons p s parts segs hp _ ih =>
    cases p with
    | literal text =>
      obtain ⟨args, hargs, htakes⟩ := ih hnames
      exact ⟨args, hargs, .cons hp htakes⟩
    | var name restricted =>
      obtain ⟨hname, hnames⟩ := List.nodup_cons.mp hnames
      obtain ⟨args, hargs, htakes⟩ := ih hnames
      refine ⟨(name, s) :: args, fun other hother => ?_,
        .cons ⟨hp.1, List.lookup_cons_self⟩ (takes_cons hname htakes)⟩
      obtain ⟨hne, hother⟩ := not_or.mp (mt List.mem_cons.mpr hother)
      rw [List.lookup_cons, beq_false_of_ne hne]
      exact hargs other hother

/-- There is a mapper as documented: one that answers with some route that fits. -/
lemma exists_documented (h : ∀ r ∈ routes, r.parts ≠ [] ∧ (names r.parts).Nodup) :
    ∃ mapper, Documented routes mapper := by
  classical
  let Right (method : String) (path : Text) (answer : κ × String × Args) : Prop :=
    ∃ r ∈ routes, r.controller = answer.1 ∧ r.action = answer.2.1 ∧ r.Fits method path answer.2.2
  refine ⟨fun method path => if h : ∃ answer, Right method path answer then some h.choose else none,
    ?_, ?_⟩
  · intro method path controller action args _ hanswer
    split at hanswer
    · rename_i hsome
      have hright := hsome.choose_spec
      rwa [Option.some.inj hanswer] at hright
    · cases hanswer
  · intro r hr method path segs hmethod hsegs hsuits
    obtain ⟨hne, hnames⟩ := h r hr
    obtain ⟨args, hargs, htakes⟩ := exists_takes hnames hsuits
    have hsome : ∃ answer, Right method path answer := by
      refine ⟨(r.controller, r.action, args), r, hr, rfl, rfl, by simp [hmethod, Methods.accepts],
        hargs, ?_⟩
      rcases List.eq_nil_or_concat segs with rfl | ⟨init, value, rfl⟩
      · exact absurd (List.forall₂_nil_right_iff.mp hsuits) hne
      · rw [List.concat_eq_append] at hsegs htakes
        exact ⟨init, value, [], by simp [extensions], by simpa using hsegs, htakes⟩
    exact ⟨_, dif_pos hsome⟩

lemma suits_of_takes (h : List.Forall₂ (Part.Takes args) parts segs)
    (hfree : ∀ p ∈ parts, p.isRestricted = false) : List.Forall₂ Part.Suits parts segs := by
  induction h with
  | nil => exact .nil
  | @cons p s parts segs hp _ ih =>
    obtain ⟨hfree, hrest⟩ := List.forall_mem_cons.mp hfree
    refine .cons ?_ (ih hrest)
    cases p with
    | literal text => exact hp
    | var name restricted => exact ⟨hp.1, fun h => absurd (hfree.symm.trans h) (by decide)⟩

lemma forall₂_concat {α β : Type*} {R : α → β → Prop} {l : List α} {l' : List β} {b : β}
    (h : List.Forall₂ R l (l' ++ [b])) : ∃ init a, l = init ++ [a] ∧ List.Forall₂ R init l' ∧ R a b := by
  induction l' generalizing l with
  | nil =>
    obtain ⟨a, l, hab, hl, rfl⟩ := List.forall₂_cons_right_iff.mp h
    obtain rfl := List.forall₂_nil_right_iff.mp hl
    exact ⟨[], a, rfl, .nil, hab⟩
  | cons b' l' ih =>
    obtain ⟨a', l, hab, hl, rfl⟩ := List.forall₂_cons_right_iff.mp h
    obtain ⟨init, a, rfl, hinit, ha⟩ := ih hl
    exact ⟨a' :: init, a, rfl, .cons hab hinit, ha⟩

lemma Route.Fits.exists_segments (h : r.Fits method path args) :
    ∃ segs, segments path = some segs ∧ segs ≠ [] := by
  obtain ⟨-, -, init, value, ext, -, hsegs, -⟩ := h
  exact ⟨_, hsegs, by simp⟩

/-- The texts that are left of a segment without an extension. -/
def stems (s : Text) : List Text :=
  extensions.filterMap fun ext =>
    if ext.isSuffixOf s then some (s.take (s.length - ext.length)) else none

/-- The last part of a route takes the last segment of a path, perhaps without an extension. -/
lemma Route.Fits.last (h : r.Fits method path args) (hsegs : segments path = some (segs ++ [s])) :
    ∃ ps p, ∃ value ∈ stems s, r.parts = ps ++ [p] ∧
      List.Forall₂ (Part.Takes args) ps segs ∧ p.Takes args value := by
  obtain ⟨-, -, init, value, ext, hext, hsegs', htakes⟩ := h
  obtain ⟨rfl, heq⟩ := List.append_inj' (Option.some.inj (hsegs.symm.trans hsegs')) rfl
  obtain ⟨ps, p, hparts, hps, hp⟩ := forall₂_concat htakes
  refine ⟨ps, p, value, List.mem_filterMap.mpr ⟨ext, hext, ?_⟩, hparts, hps, hp⟩
  rw [List.singleton_inj.mp heq, if_pos (List.isSuffixOf_iff_suffix.mpr (List.suffix_append _ _))]
  simp

def unifiable : List Part → List Part → Bool
  | [], [] => true
  | .literal a :: ps, .literal b :: qs => a == b && unifiable ps qs
  | _ :: ps, _ :: qs => unifiable ps qs
  | _, _ => false

lemma unifiable_comm (ps qs : List Part) : unifiable ps qs = unifiable qs ps := by
  induction ps generalizing qs with
  | nil => cases qs with
    | nil => rfl
    | cons q => cases q <;> rfl
  | cons p ps ih => cases qs with
    | nil => cases p <;> rfl
    | cons q qs => cases p <;> cases q <;> simp [unifiable, ih, Bool.beq_comm]

lemma unifiable_of_suits (h : List.Forall₂ Part.Suits parts segs)
    (h' : List.Forall₂ Part.Suits parts' segs) : unifiable parts parts' = true := by
  induction h generalizing parts' with
  | nil =>
    obtain rfl := List.forall₂_nil_right_iff.mp h'
    rfl
  | @cons p s parts segs hp _ ih =>
    obtain ⟨q, qs, hq, hqs, rfl⟩ := List.forall₂_cons_right_iff.mp h'
    have hrest := ih hqs
    cases p <;> cases q <;> simp_all [unifiable, Part.Suits, String.toList_inj]

/-- No segments suit both routes. -/
def Route.Apart (r r' : Route κ) : Prop := unifiable r.parts r'.parts = false

instance (r r' : Route κ) : Decidable (r.Apart r') := inferInstanceAs (Decidable (_ = _))

instance : Std.Symm (@Route.Apart κ) := ⟨fun r r' h => (unifiable_comm r'.parts r.parts).trans h⟩

/-- The part has one of the texts, or is a variable. -/
def Part.may (texts : List String) : Part → Bool
  | .literal text => texts.contains text
  | .var .. => true

lemma Part.may_of_takes {p : Part} (h : p.Takes args s) (hs : s ∈ texts.map String.toList) :
    p.may texts = true := by
  cases p with
  | literal text =>
    obtain ⟨text', ht, heq⟩ := List.mem_map.mp hs
    obtain rfl : text' = text := String.toList_inj.mp (heq.trans h)
    simpa [Part.may] using ht
  | var => rfl

def Part.admits : Part → Text → Bool
  | .literal text, s => s = text.toList
  | .var .., _ => true

/-- The answer to a path without an extension that only one route admits. -/
lemma Documented.answer {mapper : Mapper κ} (h : Documented routes mapper) (hr : r ∈ routes)
    (hmethods : r.methods = .one method) (hpath : path.getLast? ≠ some '\n')
    (hsegs : segments path = some (segs ++ [s])) (hstems : stems s = [s])
    (hsuits : List.Forall₂ Part.Suits r.parts (segs ++ [s]))
    (hunique : ∀ r' ∈ routes, r'.methods.accepts method = true →
      List.Forall₂ (fun p s => p.admits s = true) r'.parts (segs ++ [s]) → r' = r) :
    ∃ args, mapper method path = some (r.controller, r.action, args) ∧
      (∀ name ∉ names r.parts, args.lookup name = none) ∧
      List.Forall₂ (Part.Takes args) r.parts (segs ++ [s]) := by
  obtain ⟨⟨controller, action, args⟩, hanswer⟩ := h.complete r hr _ _ _ hmethods hsegs hsuits
  obtain ⟨r', hr', rfl, rfl, hfits⟩ := h.sound _ _ _ _ _ hpath hanswer
  obtain ⟨ps, p, value, hvalue, hparts, hps, hp⟩ := hfits.last hsegs
  obtain rfl : value = s := by simpa [hstems] using hvalue
  have htakes : List.Forall₂ (Part.Takes args) r'.parts (segs ++ [value]) := by
    rw [hparts]
    exact List.rel_append hps (.cons hp .nil)
  obtain rfl := hunique r' hr' hfits.1 (htakes.imp fun p s hp => by
    cases p with
    | literal text => exact decide_eq_true hp
    | var => rfl)
  exact ⟨args, hanswer, hfits.2.1, htakes⟩

end

/-! ## The segments of a path -/

section

variable {path s s' : Text}

lemma segments_of_splitOn (x : Text) (h : path.splitOn '/' = x.splitOn '/' ++ tail)
    (hsegs : segments path = some segs) : ∃ init, segs = init ++ tail := by
  rw [segments, h] at hsegs
  rcases hx : x.splitOn '/' with - | ⟨a, l⟩
  · exact absurd hx (List.splitOn_ne_nil _ _)
  · rw [hx] at hsegs
    cases a with
    | nil => exact ⟨l, by simpa using hsegs.symm⟩
    | cons => simp at hsegs

lemma segments_of_suffix (h : ('/' :: s) <:+ path) (hs : '/' ∉ s)
    (hsegs : segments path = some segs) : ∃ init, segs = init ++ [s] := by
  obtain ⟨x, rfl⟩ := h
  refine segments_of_splitOn x ?_ hsegs
  rw [List.splitOn_append_cons_self, List.splitOn_eq_singleton hs]

lemma segments_of_suffix₂ (h : ('/' :: r ++ '/' :: s) <:+ path) (hr : '/' ∉ r) (hs : '/' ∉ s)
    (hsegs : segments path = some segs) : ∃ init, segs = init ++ [r, s] := by
  obtain ⟨x, rfl⟩ := h
  refine segments_of_splitOn x ?_ hsegs
  rw [← List.append_assoc, List.splitOn_append_cons_self, List.splitOn_append_cons_self,
    List.splitOn_eq_singleton hs, List.splitOn_eq_singleton hr]
  simp

lemma intercalate_concat (h : ls ≠ []) (c : Char) (s : Text) :
    [c].intercalate (ls ++ [s]) = [c].intercalate ls ++ c :: s := by
  induction ls with
  | nil => exact absurd rfl h
  | cons a ls ih =>
    cases ls with
    | nil => simp [List.intercalate]
    | cons b ls =>
      have := ih (by simp)
      simp only [List.cons_append, List.intercalate_cons_cons] at this ⊢
      rw [this]
      simp

lemma suffix_of_segments (h : segments path = some (init ++ [s])) :
    ('/' :: s) <:+ path := by
  have hsplit : path.splitOn '/' = ([] :: init) ++ [s] := by
    rw [segments] at h
    split at h
    · rename_i segs hsegs
      rw [hsegs, Option.some.inj h]
      rfl
    · simp at h
  refine ⟨['/'].intercalate ([] :: init), ?_⟩
  rw [← intercalate_concat (by simp), ← hsplit, List.intercalate_splitOn]

/-- `str.rstrip('/')` of a path without a slash at its end. -/
lemma rdropWhile_eq_self_or (path : Text) :
    path.rdropWhile (· == '/') = path ∨ ∃ x : Text, path = x ++ ['/'] := by
  rcases List.eq_nil_or_concat path with rfl | ⟨x, c, rfl⟩
  · exact .inl rfl
  · rw [List.concat_eq_append, List.rdropWhile_concat]
    by_cases hc : c = '/'
    · exact .inr ⟨x, by rw [hc]⟩
    · exact .inl (if_neg (by simpa using hc))

end

end Routing
