import Coriolis.Library.Indexed
import Coriolis.Minions.Choice

/-!
# A failed allocation

Whatever raises while machines are allocated to an action, and however many pools have been
processed by then, the table is a mixture of rows as they were, rows that are reserved for the
action or free again, and new rows of the action (`Progress`). Giving back the rows of the
action undoes all of it.
-/

namespace Coriolis.Minions

open Conductor (MinionRole)
open Raising

section

variable {id : String}

lemma setMinionMachinesAllocationStatuses_of_mem
    (h : ∀ id ∈ ids, id ∈ s.machines.map Machine.id) :
    setMinionMachinesAllocationStatuses ids action status time s =
      .ok () { s with machines := setAllocations ids action status time s.machines } := by
  have hmissing : ids.filter (fun id => id ∉ s.machines.map Machine.id) = [] := by
    simpa [List.filter_eq_nil_iff] using h
  change (if _ then _ else _ : Handler Unit) s = _
  rw [if_neg (not_not.mpr hmissing)]
  rfl

lemma setMinionMachinesAllocationStatuses_triple
    (hok : ∀ s, P s → (∀ id ∈ ids, id ∈ s.machines.map Machine.id) →
      Q () { s with machines := setAllocations ids action status time s.machines })
    (herr : ∀ s, P s → E s) :
    Triple P (setMinionMachinesAllocationStatuses ids action status time) Q E := by
  refine .get_bind fun read hread => .ite (fun _ => .throw fun s hs => herr s (hs ▸ hread))
    fun hmissing => .set fun _ _ => hok read hread ?_
  simpa [List.filter_eq_nil_iff] using hmissing

lemma deleteMinionMachine_of_mem (h : id ∈ s.machines.map Machine.id) :
    deleteMinionMachine id s =
      .ok () { s with machines := s.machines.filter fun m : Machine => m.id ≠ id } := by
  change (if _ then _ else _ : Handler Unit) s = _
  rw [if_neg (not_not.mpr h)]
  rfl

lemma deleteMinionMachine_triple
    (hok : ∀ s, P s → id ∈ s.machines.map Machine.id →
      Q () { s with machines := s.machines.filter fun m : Machine => m.id ≠ id })
    (herr : ∀ s, P s → E s) : Triple P (deleteMinionMachine id) Q E := by
  refine .get_bind fun read hread => .ite (fun _ => .throw fun s hs => herr s (hs ▸ hread))
    fun hid => .set fun _ _ => ?_
  exact hok read hread (not_not.mp hid)

lemma Services.call_keeps (services : Services) (herr : ∀ s, P s → E s) :
    Triple P (services.call site) (fun _ => P) E :=
  .ite (fun _ => .throw herr) fun _ => .pure fun _ hs => hs

lemma liftExcept_keeps (x : Except MinionError α) :
    Keeps I (liftExcept x) := by
  cases x with
  | ok a => exact .pure fun _ h => h
  | error err => exact .throw fun _ h => h

end

section

variable {m : Machine}

@[simp] lemma Machine.setAllocation_id : (m.setAllocation action status time).id = m.id := rfl

@[simp] lemma Machine.setAllocation_allocationStatus :
    (m.setAllocation action status time).allocationStatus = status := rfl

@[simp] lemma Machine.setAllocation_allocatedAction :
    (m.setAllocation action status time).allocatedAction = action := rfl

lemma Machine.setAllocation_setAllocation :
    (m.setAllocation action status time).setAllocation action' status' time' =
      m.setAllocation action' status' (time' <|> time) := by
  cases time' <;> rfl

@[simp] lemma map_id_setAllocations :
    (setAllocations ids action status time machines).map Machine.id =
      machines.map Machine.id := by
  simp only [setAllocations, List.map_map]
  refine List.map_congr_left fun m _ => ?_
  simp only [Function.comp_apply]
  split <;> rfl

lemma setAllocations_append :
    setAllocations ids action status time (machines ++ machines') =
      setAllocations ids action status time machines ++
        setAllocations ids action status time machines' :=
  List.map_append

end

section

/-- What may have become of a row while machines are allocated to the action. -/
inductive Held (action : String) (selected : List String) (m : Machine) : Machine → Prop
  | same : Held action selected m m
  | reserved (hid : m.id ∈ selected) (hm : m.allocationStatus = .available)
      (time : Option Nat) :
      Held action selected m (m.setAllocation (some action) .reserved time)
  | released (hid : m.id ∈ selected) (hm : m.allocationStatus = .available)
      (time : Option Nat) : Held action selected m (m.setAllocation none .available time)

variable {action : String} {base : List Machine} {s : Stored} {m m' : Machine}
  {selected selected' : List String}

lemma Held.id_eq (h : Held action selected m m') : m'.id = m.id := by
  cases h <;> rfl

lemma Held.mono (h : Held action selected m m') (hsub : selected ⊆ selected') :
    Held action selected' m m' := by
  cases h with
  | same => exact .same
  | reserved hid hm time => exact .reserved (hsub hid) hm time
  | released hid hm time => exact .released (hsub hid) hm time

lemma Held.available (h : Held action selected m m')
    (hm' : m'.allocationStatus = .available) : m.allocationStatus = .available := by
  cases h with
  | same => exact hm'
  | reserved hid hm time | released hid hm time => exact hm

/-- The table of a call that allocates machines to the action, where `base` was the table
before the call. -/
structure Progress (action : String) (base : List Machine) (s : Stored) : Prop where
  rows : ∃ kept new, s.machines = kept ++ new ∧
    List.Forall₂ (Held action s.selected) base kept ∧
    ∀ m ∈ new, m.allocatedAction = some action ∧ m.allocationStatus = .uninitialized ∧
      m.id ∉ base.map Machine.id
  nodup : (s.machines.map Machine.id).Nodup
  added : ∀ id ∈ s.newMachineDbEntriesAdded, id ∉ base.map Machine.id

/-- Machines a call may change: it has picked them, and they were available before it. -/
def Pickable (base : List Machine) (selected ids : List String) : Prop :=
  ∀ id ∈ ids, id ∈ selected ∧ ∃ m ∈ base, m.id = id ∧ m.allocationStatus = .available

lemma Progress.start (h : (base.map Machine.id).Nodup) : Progress action base ⟨base, [], []⟩ :=
  ⟨⟨base, [], by simp, List.forall₂_same.mpr fun _ _ => .same, by simp⟩, h, by simp⟩

lemma Held.setAllocation (h : Held action selected m m') (hids : Pickable base selected ids)
    (hnodup : (base.map Machine.id).Nodup) (hm : m ∈ base) (time : Option Nat)
    (hact : act = some action ∧ status = .reserved ∨ act = none ∧ status = .available) :
    Held action selected m (if m'.id ∈ ids then m'.setAllocation act status time else m') := by
  split
  · next hid =>
    rw [h.id_eq] at hid
    obtain ⟨hselected, m₀, hm₀, hid₀, havailable⟩ := hids m.id hid
    have hm₀ : m₀ = m := List.inj_on_of_nodup_map hnodup hm₀ hm hid₀
    subst hm₀
    have htime : ∃ time', m'.setAllocation act status time =
        m₀.setAllocation act status time' := by
      cases h with
      | same => exact ⟨time, rfl⟩
      | reserved _ _ time₀ | released _ _ time₀ =>
        exact ⟨time <|> time₀, Machine.setAllocation_setAllocation⟩
    obtain ⟨time', heq⟩ := htime
    rw [heq]
    rcases hact with ⟨rfl, rfl⟩ | ⟨rfl, rfl⟩
    · exact .reserved hselected havailable time'
    · exact .released hselected havailable time'
  · exact h

lemma Progress.map_id_kept (h : List.Forall₂ (Held action selected) base kept) :
    kept.map Machine.id = base.map Machine.id :=
  (Indexed.map_eq_map h fun _ _ hm => hm.id_eq.symm).symm

lemma Progress.base_nodup (h : Progress action base s) : (base.map Machine.id).Nodup := by
  obtain ⟨kept, new, hrows, hkept, -⟩ := h.rows
  have hnodup := h.nodup
  rw [hrows, List.map_append] at hnodup
  exact map_id_kept hkept ▸ (List.nodup_append.mp hnodup).1

/-- Reserving machines the call may change, or freeing them again. -/
lemma Progress.setAllocations (h : Progress action base s) (hids : Pickable base s.selected ids)
    (time : Option Nat)
    (hact : act = some action ∧ status = .reserved ∨ act = none ∧ status = .available) :
    Progress action base { s with machines := setAllocations ids act status time s.machines } := by
  obtain ⟨kept, new, hrows, hkept, hnew⟩ := h.rows
  refine ⟨⟨Minions.setAllocations ids act status time kept, new, ?_, ?_, hnew⟩, ?_, h.added⟩
  · have hsame : Minions.setAllocations ids act status time new = new := by
      refine (List.map_congr_left fun m hm => if_neg fun hid => ?_).trans (List.map_id new)
      obtain ⟨-, m₀, hm₀, hid₀, -⟩ := hids m.id hid
      exact (hnew m hm).2.2 (List.mem_map.mpr ⟨m₀, hm₀, hid₀⟩)
    simp only [hrows, setAllocations_append, hsame]
  · exact List.forall₂_map_right_iff.mpr (Indexed.imp_of_mem hkept fun m hm _ _ hheld =>
      hheld.setAllocation hids h.base_nodup hm time hact)
  · simpa using h.nodup

lemma Progress.add (h : Progress action base s) {pool id : String}
    (hid : id ∉ s.machines.map Machine.id) :
    Progress action base { s with
      machines := s.machines ++ [newMinionMachine pool action id]
      newMachineDbEntriesAdded := s.newMachineDbEntriesAdded ++ [id] } := by
  obtain ⟨kept, new, hrows, hkept, hnew⟩ := h.rows
  have hbase : id ∉ base.map Machine.id := by
    rw [← map_id_kept hkept]
    rw [hrows, List.map_append, List.mem_append] at hid
    exact fun hmem => hid (.inl hmem)
  refine ⟨⟨kept, new ++ [newMinionMachine pool action id], ?_, hkept, ?_⟩, ?_, ?_⟩
  · simp [hrows]
  · exact List.forall_mem_append.mpr
      ⟨hnew, List.forall_mem_singleton.mpr ⟨rfl, rfl, hbase⟩⟩
  · rw [List.map_append]
    refine List.nodup_append.mpr ⟨h.nodup, by simp, ?_⟩
    intro x hx y hy heq
    have hy : y = id := by simpa [newMinionMachine] using hy
    exact hid (hy ▸ heq ▸ hx)
  · exact List.forall_mem_append.mpr ⟨h.added, List.forall_mem_singleton.mpr hbase⟩

lemma Progress.delete (h : Progress action base s) {id : String}
    (hid : id ∉ base.map Machine.id) :
    Progress action base { s with
      machines := s.machines.filter fun m : Machine => m.id ≠ id } := by
  obtain ⟨kept, new, hrows, hkept, hnew⟩ := h.rows
  refine ⟨⟨kept, new.filter fun m => m.id ≠ id, ?_, hkept, ?_⟩, ?_, h.added⟩
  · have hsame : kept.filter (fun m => m.id ≠ id) = kept := by
      refine List.filter_eq_self.mpr fun m hm => decide_eq_true fun heq => hid ?_
      rw [← map_id_kept hkept, ← heq]
      exact List.mem_map_of_mem hm
    simp only [hrows, List.filter_append, hsame]
  · exact fun m hm => hnew m (List.mem_filter.mp hm).1
  · exact h.nodup.sublist (List.filter_sublist.map Machine.id)

lemma Progress.select (h : Progress action base s) (ids : List String) :
    Progress action base { s with
      newMachineDbEntriesAdded := []
      selected := s.selected ++ ids } := by
  obtain ⟨kept, new, hrows, hkept, hnew⟩ := h.rows
  have hsub : s.selected ⊆ s.selected ++ ids := List.subset_append_left ..
  exact ⟨⟨kept, new, hrows, hkept.imp fun _ _ hheld => hheld.mono hsub, hnew⟩, h.nodup,
    by simp⟩

end

section

variable {services : Services} {base : List Machine} {action : String}

/-- The table of a call that has picked the machines, while it stores what it has chosen. -/
structure Storing (action : String) (base : List Machine) (picked : List String) (s : Stored) :
    Prop where
  progress : Progress action base s
  pickable : Pickable base s.selected picked

def Fresh (ids : List String) (s : Stored) : Prop := ∀ id ∈ ids, id ∉ s.machines.map Machine.id

lemma reserveMinionMachines_keeps :
    Triple (fun s => Storing action base (existingMachines slots) s ∧ Fresh ids s)
      (reserveMinionMachines services role pool action slots)
      (fun _ s => Storing action base (existingMachines slots) s ∧ Fresh ids s)
      (Storing action base (existingMachines slots)) := by
  refine .ite (fun _ => ?_) fun _ => .pure fun _ hs => hs
  refine .bind (services.call_keeps fun _ hs => hs.1) fun _ => ?_
  refine .bind (setMinionMachinesAllocationStatuses_triple ?_ fun _ hs => hs.1) fun _ =>
    services.call_keeps fun _ hs => hs.1
  rintro s ⟨hs, hfresh⟩ -
  exact ⟨⟨hs.progress.setAllocations hs.pickable _ (.inl ⟨rfl, rfl⟩), hs.pickable⟩,
    by simpa [Fresh] using hfresh⟩

lemma each_addMinionMachine_keeps (ids : List String) (hnodup : ids.Nodup) :
    Triple (fun s => Storing action base picked s ∧ Fresh ids s)
      (each (fun id => do
        services.call (.addMinionMachine id)
        addMinionMachine (newMinionMachine pool action id)) ids)
      (fun _ => Storing action base picked) (Storing action base picked) := by
  induction ids with
  | nil => exact .pure fun s hs => hs.1
  | cons id ids ih =>
    rw [List.nodup_cons] at hnodup
    refine .bind (Q := fun _ s => Storing action base picked s ∧ Fresh ids s) ?_ fun _ =>
      ih hnodup.2
    refine .bind (services.call_keeps fun _ hs => hs.1) fun _ => .modify ?_
    rintro s ⟨hs, hfresh⟩
    refine ⟨⟨hs.progress.add (hfresh id List.mem_cons_self), hs.pickable⟩, ?_⟩
    intro id' hid' hmem
    rw [List.map_append, List.mem_append] at hmem
    rcases hmem with hmem | hmem
    · exact hfresh id' (List.mem_cons_of_mem id hid') hmem
    · have heq : id' = id := by simpa [newMinionMachine] using hmem
      exact hnodup.1 (heq ▸ hid')

lemma storeAllocations_keeps (hnodup : (newMachines slots).Nodup) :
    Triple
      (fun s => Storing action base (existingMachines slots) s ∧ Fresh (newMachines slots) s)
      (storeAllocations services role pool action slots) (fun _ => Progress action base)
      (Progress action base) := by
  refine .tryCatch (F := Storing action base (existingMachines slots)) ?_ fun err => ?_
  · refine .bind reserveMinionMachines_keeps fun _ => ?_
    refine .ite (fun _ => ?_) fun _ => .pure fun _ hs => hs.1.progress
    exact .bind (each_addMinionMachine_keeps _ hnodup) fun _ =>
      (services.call_keeps fun _ hs => hs).mono (fun _ hs => hs) (fun _ _ hs => hs.progress)
        fun _ hs => hs
  · have hfree : Triple (Storing action base (existingMachines slots))
        (setMinionMachinesAllocationStatuses (existingMachines slots) none .available none)
        (fun _ => Progress action base) (Progress action base) :=
      setMinionMachinesAllocationStatuses_triple
        (fun s hs _ => hs.progress.setAllocations hs.pickable _ (.inr ⟨rfl, rfl⟩))
        fun s hs => hs.progress
    refine .bind (.attempt hfree) fun _ => .get_bind fun read hread =>
      .bind (Q := fun _ => Progress action base) ?_ fun _ => .throw fun _ hs => hs
    rintro s rfl
    refine Triple.each (fun id hid => .attempt ?_) s hread
    exact deleteMinionMachine_triple (fun _ hs _ => hs.delete (hread.added id hid)) fun _ hs => hs

lemma Progress.pickable (h : Progress action base s) {pool : Pool}
    (hslots : Chosen (pool.minionMachines s.machines) newId slots) :
    Pickable base (s.selected ++ existingMachines slots) (existingMachines slots) := by
  intro id hid
  refine ⟨List.mem_append_right _ hid, ?_⟩
  obtain ⟨m', hm', rfl, havailable⟩ := hslots.mem_existingMachines hid
  obtain ⟨kept, new, hrows, hkept, hnew⟩ := h.rows
  have hmem : m' ∈ kept ++ new := hrows ▸ (List.mem_filter.mp hm').1
  rcases List.mem_append.mp hmem with hmem | hmem
  · obtain ⟨m, hm, hheld⟩ := Indexed.exists_of_mem_right hkept hmem
    exact ⟨m, hm, hheld.id_eq.symm, hheld.available havailable⟩
  · rw [(hnew m' hmem).2.1] at havailable
    cases havailable

lemma makeMinionMachineAllocationSubflowForAction_keeps :
    Keeps (Progress action base)
      (makeMinionMachineAllocationSubflowForAction services role pool action instances) := by
  refine .get_bind fun read hread => .ite (fun _ => .throw fun _ hs => hs ▸ hread) fun _ => ?_
  split
  · exact .throw fun _ hs => hs ▸ hread
  · next slots hchoice =>
    obtain ⟨hchosen, -⟩ := chooseMachines_ok hchoice .nil
    refine .bind (.set fun _ _ => ?_) fun _ => .bind
      (storeAllocations_keeps (hchosen.newMachines_nodup (services.newId_injective _)))
      fun _ => .pure fun _ hs => hs
    refine ⟨⟨hread.select _, hread.pickable hchosen⟩, fun id hid hmem => ?_⟩
    obtain ⟨k, rfl⟩ := hchosen.mem_newMachines hid
    exact services.newId_fresh _ k hmem

lemma allocateFromPool_keeps :
    Keeps (Progress action base) (allocateFromPool services role poolId action instances) := by
  refine .bind (services.call_keeps fun _ hs => hs) fun _ => ?_
  split
  · exact .throw fun _ hs => hs
  · refine .ite (fun _ => .throw fun _ hs => hs) fun _ => ?_
    exact .bind (services.call_keeps fun _ hs => hs) fun _ =>
      makeMinionMachineAllocationSubflowForAction_keeps

lemma Flow.allocate_keeps {flow : Flow} :
    Keeps (Progress action base) (flow.allocate services role poolId action instances) :=
  .bind allocateFromPool_keeps fun _ => .bind (liftExcept_keeps _) fun _ => .pure fun _ hs => hs

lemma Flow.allocateTransferMinions_keeps {flow : Flow} :
    Keeps (Progress a.id base) (flow.allocateTransferMinions services included role pool a) := by
  unfold allocateTransferMinions
  split
  · exact .ite (fun _ => allocate_keeps) fun _ => .pure fun _ hs => hs
  · exact .pure fun _ hs => hs

lemma Flow.allocateOsmorphingGroups_keeps (groups : List (String × List (String × String)))
    (flow : Flow) :
    Keeps (Progress a.id base) (allocateOsmorphingGroups services a t groups flow) := by
  induction groups generalizing flow with
  | nil => exact .pure fun _ hs => hs
  | cons g groups ih =>
    refine .bind (Q := fun _ => Progress a.id base) ?_ ih
    exact .ite (fun _ => .bind (liftExcept_keeps _) fun _ => .pure fun _ hs => hs)
      fun _ => allocate_keeps

lemma runMachineAllocationSubflowForAction_keeps :
    Keeps (Progress a.id base) (runMachineAllocationSubflowForAction services a t o) := by
  refine .bind Flow.allocateTransferMinions_keeps fun _ => ?_
  refine .bind Flow.allocateTransferMinions_keeps fun _ => ?_
  split
  · exact .throw fun _ hs => hs
  · refine .bind (Q := fun _ => Progress a.id base) ?_ fun _ =>
      .bind (services.call_keeps fun _ hs => hs) fun _ => .pure fun _ hs => hs
    exact .ite (fun _ => Flow.allocateOsmorphingGroups_keeps _ _) fun _ =>
      .pure fun _ hs => hs

end

section

variable {s : Stored} {l : List Machine} {action : String}

/-- What becomes of a row when the machines with the ids are given back. -/
def giveBack (ids : List String) (m : Machine) : Option Machine :=
  if m.id ∈ ids then
    if m.allocationStatus = .uninitialized then none
    else some (m.setAllocation none .available none)
  else some m

/-- What becomes of a row when the machines of the action are given back. -/
def giveBackAction (action : String) (m : Machine) : Option Machine :=
  if m.allocatedAction = some action then
    if m.allocationStatus = .uninitialized then none
    else some (m.setAllocation none .available none)
  else some m

lemma giveBack_of_notMem (h : m.id ∉ ids) :
    giveBack ids m = some m := if_neg h

lemma giveBack_append (h : m.id ∈ ids → m.id ∉ ids') :
    (giveBack ids m).bind (giveBack ids') = giveBack (ids ++ ids') m := by
  by_cases hid : m.id ∈ ids
  · rw [giveBack, giveBack, if_pos hid, if_pos (List.mem_append_left ids' hid)]
    split
    · rfl
    · exact giveBack_of_notMem (h hid)
  · rw [giveBack_of_notMem hid, Option.bind_some, giveBack, giveBack]
    simp only [List.mem_append, hid, false_or]

lemma each_deleteMinionMachine (hl : ∀ m ∈ l, m ∈ s.machines)
    (hnodup : (l.map Machine.id).Nodup) :
    each (fun m : Machine => deleteMinionMachine m.id) l s =
      .ok () { s with machines := s.machines.filter fun m => m.id ∉ l.map Machine.id } := by
  induction l generalizing s with
  | nil => simp [each]; rfl
  | cons m l ih =>
    rw [List.map_cons, List.nodup_cons] at hnodup
    have hm : m.id ∈ s.machines.map Machine.id := List.mem_map_of_mem (hl m List.mem_cons_self)
    rw [each_cons, deleteMinionMachine_of_mem hm]
    refine (ih (fun m' hm' => ?_) hnodup.2).trans ?_
    · refine List.mem_filter.mpr ⟨hl m' (List.mem_cons_of_mem m hm'), decide_eq_true fun heq => ?_⟩
      exact hnodup.1 (heq ▸ List.mem_map_of_mem hm')
    · simp only [List.filter_filter, List.map_cons, List.mem_cons, not_or, Bool.decide_and,
        Bool.and_comm, ne_eq]

lemma mem_of_id_mem (hs : (s.machines.map Machine.id).Nodup) (hl : ∀ m ∈ l, m ∈ s.machines)
    (hm : m ∈ s.machines) (hid : m.id ∈ l.map Machine.id) : m ∈ l := by
  obtain ⟨m', hm', heq⟩ := List.mem_map.mp hid
  rwa [← List.inj_on_of_nodup_map hs (hl m' hm') hm heq]

lemma deallocateMinionMachines_run (hs : (s.machines.map Machine.id).Nodup)
    (hl : ∀ m ∈ l, m ∈ s.machines) (hnodup : (l.map Machine.id).Nodup) :
    deallocateMinionMachines l s =
      .ok () { s with machines := s.machines.filterMap (giveBack (l.map Machine.id)) } := by
  have hsub : ∀ {p : Machine → Bool}, ∀ m ∈ l.filter p, m ∈ s.machines := fun m hm =>
    hl m (List.mem_filter.mp hm).1
  have hdelete := each_deleteMinionMachine
    (l := l.filter fun m => m.allocationStatus = .uninitialized) hsub
    (hnodup.sublist (List.filter_sublist.map Machine.id))
  rw [deallocateMinionMachines, bind_of_ok hdelete, setMinionMachinesAllocationStatuses_of_mem]
  · congr 2
    rw [setAllocations, ← List.filterMap_eq_map, List.filterMap_filter]
    refine List.filterMap_congr fun m hm => ?_
    have hmem : ∀ p : Machine → Bool, m.id ∈ (l.filter p).map Machine.id ↔
        m.id ∈ l.map Machine.id ∧ p m = true := by
      intro p
      constructor
      · intro hid
        have hml := List.mem_filter.mp (mem_of_id_mem hs hsub hm hid)
        exact ⟨List.mem_map_of_mem hml.1, hml.2⟩
      · rintro ⟨hid, hp⟩
        exact List.mem_map_of_mem (List.mem_filter.mpr ⟨mem_of_id_mem hs hl hm hid, hp⟩)
    by_cases hid : m.id ∈ l.map Machine.id
    · by_cases hstatus : m.allocationStatus = .uninitialized
      · simp only [giveBack, hmem, hid, hstatus, Function.comp_apply]
        simp
      · simp only [giveBack, hmem, hid, hstatus, Function.comp_apply]
        simp [hstatus]
    · simp only [giveBack, hmem, hid, Function.comp_apply]
      simp
  · intro id hid
    obtain ⟨m, hm, rfl⟩ := List.mem_map.mp hid
    obtain ⟨hml, hstatus⟩ := List.mem_filter.mp hm
    refine List.mem_map_of_mem (List.mem_filter.mpr ⟨hl m hml, decide_eq_true fun hdel => ?_⟩)
    have := mem_of_id_mem hs hsub (hl m hml) hdel
    simp_all

lemma map_id_filterMap_giveBack (ids : List String) (machines : List Machine) :
    ((machines.filterMap (giveBack ids)).map Machine.id).Sublist (machines.map Machine.id) := by
  induction machines with
  | nil => simp
  | cons m machines ih =>
    have hid : ∀ m', giveBack ids m = some m' → m'.id = m.id := by
      unfold giveBack
      intro m' h
      split at h
      · split at h <;> cases h
        rfl
      · cases h
        rfl
    cases hm : giveBack ids m with
    | none => rw [List.filterMap_cons_none hm]; exact ih.cons _
    | some m' =>
      rw [List.filterMap_cons_some hm, List.map_cons, List.map_cons, hid m' hm]
      exact ih.cons_cons _

lemma each_deallocateMinionMachines (groups : List (String × List Machine))
    (hs : (s.machines.map Machine.id).Nodup)
    (hl : ∀ m ∈ groups.flatMap Prod.snd, m ∈ s.machines)
    (hnodup : ((groups.flatMap Prod.snd).map Machine.id).Nodup) :
    each (fun pool => deallocateMinionMachines pool.2) groups s =
      .ok () { s with
        machines := s.machines.filterMap
          (giveBack ((groups.flatMap Prod.snd).map Machine.id)) } := by
  induction groups generalizing s with
  | nil =>
    have hsame : s.machines.filterMap (giveBack []) = s.machines :=
      (List.filterMap_congr fun m _ => giveBack_of_notMem (by simp)).trans (List.filterMap_some ..)
    rw [List.flatMap_nil, List.map_nil, hsame]
    rfl
  | cons g groups ih =>
    rw [List.flatMap_cons] at hl hnodup
    rw [List.map_append, List.nodup_append] at hnodup
    have hg : ∀ m ∈ g.2, m ∈ s.machines := fun m hm => hl m (List.mem_append_left _ hm)
    rw [each_cons, deallocateMinionMachines_run hs hg hnodup.1]
    refine (ih (hs.sublist (map_id_filterMap_giveBack ..)) (fun m hm => ?_) hnodup.2.1).trans ?_
    · refine List.mem_filterMap.mpr ⟨m, hl m (List.mem_append_right _ hm), if_neg fun hid => ?_⟩
      exact hnodup.2.2 m.id hid m.id (List.mem_map_of_mem hm) rfl
    · congr 2
      rw [List.filterMap_filterMap, List.flatMap_cons, List.map_append]
      refine List.filterMap_congr fun m _ => ?_
      exact giveBack_append fun h h' => hnodup.2.2 m.id h m.id h' rfl

lemma mem_group_iff (hs : (s.machines.map Machine.id).Nodup) (hrows : rows.Sublist s.machines) :
    (∀ m ∈ (Grouping.group Machine.poolId rows).flatMap Prod.snd, m ∈ s.machines) ∧
      (((Grouping.group Machine.poolId rows).flatMap Prod.snd).map Machine.id).Nodup ∧
      ∀ m ∈ s.machines, (m.id ∈ ((Grouping.group Machine.poolId rows).flatMap Prod.snd).map
        Machine.id ↔ m ∈ rows) := by
  have hperm : ((Grouping.group Machine.poolId rows).flatMap Prod.snd).Perm rows :=
    Grouping.flatMap_group
  have hl : ∀ m ∈ (Grouping.group Machine.poolId rows).flatMap Prod.snd, m ∈ s.machines :=
    fun m hm => hrows.subset (hperm.mem_iff.mp hm)
  refine ⟨hl, ?_, fun m hm => ⟨fun hid => ?_, fun hmem => ?_⟩⟩
  · rw [(hperm.map Machine.id).nodup_iff]
    exact hs.sublist (hrows.map Machine.id)
  · exact hperm.mem_iff.mp (mem_of_id_mem hs hl hm hid)
  · exact List.mem_map_of_mem (hperm.mem_iff.mpr hmem)

lemma deallocateMinionMachinesForAction_run (ha : action ≠ "")
    (hs : (s.machines.map Machine.id).Nodup) :
    deallocateMinionMachinesForAction action s = .ok () { s with
      machines := s.machines.filterMap (giveBackAction action) } := by
  have hrows : getMinionMachines action s.machines =
      s.machines.filter fun m => m.allocatedAction = some action := if_neg ha
  obtain ⟨hl, hnodup, hid⟩ := mem_group_iff hs (hrows ▸ List.filter_sublist)
  refine (each_deallocateMinionMachines _ hs hl hnodup).trans ?_
  congr 2
  refine List.filterMap_congr fun m hm => ?_
  simp only [giveBack, giveBackAction, hid m hm]
  simp only [hrows, List.mem_filter, hm, true_and, decide_eq_true_eq]

lemma cleanupMachinesWithStatusesForAction_run (ha : action ≠ "")
    (hs : (s.machines.map Machine.id).Nodup) :
    cleanupMachinesWithStatusesForAction action [.uninitialized] s = .ok () { s with
      machines := s.machines.filter fun m =>
        ¬ (m.allocatedAction = some action ∧ m.allocationStatus = .uninitialized) } := by
  have hrows : getMinionMachines action s.machines =
      s.machines.filter fun m => m.allocatedAction = some action := if_neg ha
  obtain ⟨hl, hnodup, hid⟩ := mem_group_iff hs
    (List.filter_sublist.trans (hrows ▸ List.filter_sublist))
  refine (each_flatMap ..).trans ((each_deleteMinionMachine hl hnodup).trans ?_)
  congr 2
  refine List.filter_congr fun m hm => ?_
  simp only [hid m hm]
  simp only [hrows, List.mem_filter, hm, true_and, decide_eq_true_eq, List.mem_singleton]

end

section

variable {services : Services} {a : Action}

/-- What a call that raised leaves behind. The machines it had picked are those it may have
allocated to the action. -/
structure LeavesNothing (action : String) (before : List Machine) (after : Stored) : Prop where
  released : ∀ m ∈ after.machines, m.allocatedAction ≠ some action
  available : ∀ m ∈ before, m.allocationStatus = .available →
    ∃ m' ∈ after.machines, m'.id = m.id ∧ m'.allocationStatus = .available
  removed : ∀ m' ∈ after.machines, ∃ m ∈ before, m.id = m'.id
  untouched : ∀ m ∈ before, m.allocatedAction ≠ some action → m.id ∉ after.selected →
    m ∈ after.machines

/-- Both ways to clean up together: deleting first the rows that were never initialized changes
nothing about what is given back. -/
lemma cleanup_deallocate_run (ha : action ≠ "") (hs : (s.machines.map Machine.id).Nodup) :
    (do
      cleanupMachinesWithStatusesForAction action [.uninitialized]
      deallocateMinionMachinesForAction action : Handler Unit) s = .ok () { s with
        machines := s.machines.filterMap (giveBackAction action) } := by
  rw [bind_of_ok (cleanupMachinesWithStatusesForAction_run ha hs),
    deallocateMinionMachinesForAction_run ha (hs.sublist (List.filter_sublist.map Machine.id))]
  congr 2
  rw [List.filterMap_filter]
  refine List.filterMap_congr fun m _ => ?_
  by_cases haction : m.allocatedAction = some action
  · by_cases hstatus : m.allocationStatus = .uninitialized
    · simp [giveBackAction, haction, hstatus]
    · simp [haction, hstatus]
  · simp [haction]

lemma giveBackAction_id (h : giveBackAction action m = some m') : m'.id = m.id := by
  unfold giveBackAction at h
  split at h
  · split at h <;> cases h
    rfl
  · cases h
    rfl

lemma giveBackAction_allocatedAction (h : giveBackAction action m = some m') :
    m'.allocatedAction ≠ some action := by
  unfold giveBackAction at h
  split at h
  · split at h <;> cases h
    simp
  · next hne =>
    cases h
    exact hne

lemma Held.giveBackAction_available (h : Held action selected m m')
    (hm : m.allocationStatus = .available) :
    ∃ m'', giveBackAction action m' = some m'' ∧ m''.allocationStatus = .available := by
  cases h with
  | same =>
    by_cases haction : m.allocatedAction = some action
    · have hgiven : giveBackAction action m = some (m.setAllocation none .available none) := by
        rw [giveBackAction, if_pos haction, if_neg (by simp [hm])]
      exact ⟨_, hgiven, rfl⟩
    · exact ⟨m, if_neg haction, hm⟩
  | reserved _ _ time =>
    exact ⟨_, (if_pos rfl).trans (if_neg nofun), rfl⟩
  | released _ _ time => exact ⟨_, if_neg nofun, rfl⟩

lemma Progress.leavesNothing (h : Progress action base s) :
    LeavesNothing action base { s with
      machines := s.machines.filterMap (giveBackAction action) } := by
  obtain ⟨kept, new, hrows, hkept, hnew⟩ := h.rows
  have hheld : ∀ m ∈ base, ∃ m' ∈ s.machines, Held action s.selected m m' := by
    intro m hm
    obtain ⟨m', hm', hheld⟩ := Indexed.exists_of_mem_left hkept hm
    exact ⟨m', hrows ▸ List.mem_append_left new hm', hheld⟩
  refine ⟨?_, ?_, ?_, ?_⟩
  · intro m' hm'
    obtain ⟨m, -, hm⟩ := List.mem_filterMap.mp hm'
    exact giveBackAction_allocatedAction hm
  · intro m hm havailable
    obtain ⟨m', hm', hheld⟩ := hheld m hm
    obtain ⟨m'', hgiven, havailable'⟩ := hheld.giveBackAction_available havailable
    exact ⟨m'', List.mem_filterMap.mpr ⟨m', hm', hgiven⟩,
      (giveBackAction_id hgiven).trans hheld.id_eq, havailable'⟩
  · intro m'' hm''
    obtain ⟨m', hm', hgiven⟩ := List.mem_filterMap.mp hm''
    have hmem : m' ∈ kept ++ new := hrows ▸ hm'
    rcases List.mem_append.mp hmem with hmem | hmem
    · obtain ⟨m, hm, hheld⟩ := Indexed.exists_of_mem_right hkept hmem
      exact ⟨m, hm, hheld.id_eq.symm.trans (giveBackAction_id hgiven).symm⟩
    · obtain ⟨haction, hstatus, -⟩ := hnew m' hmem
      rw [giveBackAction, if_pos haction, if_pos hstatus] at hgiven
      cases hgiven
  · intro m hm hne hselected
    obtain ⟨m', hm', hheld⟩ := hheld m hm
    cases hheld with
    | same => exact List.mem_filterMap.mpr ⟨m, hm', if_neg hne⟩
    | reserved hid | released hid => exact absurd hid hselected

lemma allocateMinionMachines_raises (hids : (base.map Machine.id).Nodup)
    (hrun : runMachineAllocationSubflowForAction services a t o ⟨base, [], []⟩ = .error err s) :
    ∃ err' s', allocateMinionMachines services a t o ⟨base, [], []⟩ = .error err' s' ∧
      LeavesNothing a.id base s' := by
  have hs : Progress a.id base s :=
    Triple.of_error runMachineAllocationSubflowForAction_keeps (.start hids) hrun
  have hclean := cleanup_deallocate_run a.id_ne hs.nodup
  have hcatch : allocateMinionMachines services a t o ⟨base, [], []⟩ =
      (do
        cleanupMachinesWithStatusesForAction a.id [.uninitialized]
        deallocateMinionMachinesForAction a.id
        services.call .reportAllocationError
        throw err : Handler Flow) s := tryCatch_of_error hrun
  rw [← bind_assoc, bind_of_ok hclean] at hcatch
  by_cases hreport : services.fails .reportAllocationError
  · refine ⟨.raised .reportAllocationError, _, ?_, hs.leavesNothing⟩
    rw [hcatch, Services.call, if_pos hreport]
    rfl
  · refine ⟨err, _, ?_, hs.leavesNothing⟩
    rw [hcatch, Services.call, if_neg hreport]
    rfl

end

end Coriolis.Minions
