import Mathlib.Data.List.Perm.Basic

set_option autoImplicit false

namespace Handles

-- The references to objects that an allocator has given out. A handle stands in the list once for
-- each reference, and the object is gone with the last of them.
structure Table where
  next : Nat
  references : List Nat
deriving DecidableEq, Repr

def empty : Table := ⟨0, []⟩

def Table.allocate (table : Table) : Nat × Table := (table.next, ⟨table.next + 1, table.next :: table.references⟩)

-- None is the use of an object that is gone.
def Table.share (table : Table) (handle : Nat) : Option Table :=
  if handle ∈ table.references then some { table with references := handle :: table.references } else none

def Table.release (table : Table) (handle : Nat) : Option Table :=
  if handle ∈ table.references then some { table with references := table.references.erase handle } else none

-- The table holds these references, whoever has them, and no others.
structure Table.Holds (table : Table) (references : List Nat) : Prop where
  counted : table.references.Perm references
  issued : ∀ handle ∈ references, handle < table.next

theorem empty_holds : empty.Holds [] := ⟨.refl _, by simp⟩

theorem holds_perm (table : Table) (references others : List Nat) (holds : table.Holds references)
    (same : references.Perm others) : table.Holds others :=
  ⟨holds.counted.trans same, fun handle member => holds.issued handle (same.mem_iff.mpr member)⟩

theorem holds_nil (table : Table) (references : List Nat) (holds : table.Holds references) :
    table.references = [] ↔ references = [] := by
  rw [← List.length_eq_zero_iff, holds.counted.length_eq, List.length_eq_zero_iff]

theorem holds_live (table : Table) (references : List Nat) (handle : Nat) (holds : table.Holds (handle :: references)) :
    handle ∈ table.references :=
  holds.counted.mem_iff.mpr List.mem_cons_self

theorem allocate_holds (table : Table) (references : List Nat) (holds : table.Holds references) :
    table.allocate.2.Holds (table.allocate.1 :: references) ∧ table.allocate.1 ∉ references := by
  refine ⟨⟨holds.counted.cons _, ?_⟩, fun member => Nat.lt_irrefl _ (holds.issued _ member)⟩
  intro handle member
  rcases List.mem_cons.mp member with rfl | earlier
  · exact Nat.lt_succ_self _
  · exact Nat.lt_succ_of_lt (holds.issued handle earlier)

theorem share_holds (table : Table) (references : List Nat) (handle : Nat) (holds : table.Holds (handle :: references)) :
    ∃ shared, table.share handle = some shared ∧ shared.Holds (handle :: handle :: references) := by
  refine ⟨_, if_pos (holds_live table references handle holds), holds.counted.cons _, ?_⟩
  intro other member
  rcases List.mem_cons.mp member with rfl | earlier
  · exact holds.issued other List.mem_cons_self
  · exact holds.issued other earlier

theorem release_holds (table : Table) (references : List Nat) (handle : Nat) (holds : table.Holds (handle :: references)) :
    ∃ released, table.release handle = some released ∧ released.Holds references := by
  refine ⟨_, if_pos (holds_live table references handle holds), ?_, ?_⟩
  · have erased := holds.counted.erase handle
    rwa [List.erase_cons_head] at erased
  · exact fun other member => holds.issued other (List.mem_cons_of_mem handle member)

structure Table.Distinct (table : Table) : Prop where
  nodup : table.references.Nodup
  issued : ∀ handle ∈ table.references, handle < table.next

-- What a later table has of the handles that had been issued: those that were not closed on the way.
structure Table.Follows (table : Table) (closed : List Nat) (later : Table) : Prop where
  distinct : later.Distinct
  next : table.next ≤ later.next
  live : ∀ handle, handle < table.next → (handle ∈ later.references ↔ handle ∈ table.references ∧ handle ∉ closed)

theorem empty_distinct : empty.Distinct := ⟨List.nodup_nil, by simp [empty]⟩

theorem follows_same (table : Table) (distinct : table.Distinct) : table.Follows [] table :=
  ⟨distinct, Nat.le_refl _, fun _ _ => by simp⟩

theorem follows_trans (first second third : Table) (closed more : List Nat) (before : first.Follows closed second)
    (after : second.Follows more third) : first.Follows (closed ++ more) third := by
  refine ⟨after.distinct, Nat.le_trans before.next after.next, fun handle issued => ?_⟩
  rw [after.live handle (Nat.lt_of_lt_of_le issued before.next), before.live handle issued, List.mem_append, not_or, and_assoc]

-- A handle that was not issued yet does not count among the closed ones.
theorem follows_issued (table later : Table) (closed others : List Nat) (follows : table.Follows closed later)
    (same : ∀ handle, handle < table.next → (handle ∈ closed ↔ handle ∈ others)) : table.Follows others later := by
  refine ⟨follows.distinct, follows.next, fun handle issued => ?_⟩
  rw [follows.live handle issued, same handle issued]

theorem allocate_follows (table : Table) (distinct : table.Distinct) : table.Follows [] table.allocate.2 := by
  have fresh : table.next ∉ table.references := fun member => Nat.lt_irrefl _ (distinct.issued _ member)
  refine ⟨⟨List.nodup_cons.mpr ⟨fresh, distinct.nodup⟩, fun handle member => ?_⟩, Nat.le_succ _, fun handle issued => ?_⟩
  · rcases List.mem_cons.mp member with rfl | earlier
    · exact Nat.lt_succ_self _
    · exact Nat.lt_succ_of_lt (distinct.issued handle earlier)
  · have older : handle ≠ table.next := Nat.ne_of_lt issued
    simp [Table.allocate, older]

theorem release_next (table released : Table) (handle : Nat) (release : table.release handle = some released) :
    released.next = table.next := by
  rw [Table.release] at release
  split at release
  · rw [← Option.some.inj release]
  · cases release

theorem release_follows (table released : Table) (handle : Nat) (distinct : table.Distinct)
    (release : table.release handle = some released) : table.Follows [handle] released := by
  rw [Table.release] at release
  split at release
  · obtain rfl := Option.some.inj release
    refine ⟨⟨distinct.nodup.erase handle, fun other member => distinct.issued other (List.mem_of_mem_erase member)⟩,
      Nat.le_refl _, fun other _ => ?_⟩
    rw [List.mem_singleton]
    exact (distinct.nodup.mem_erase_iff).trans and_comm
  · cases release

end Handles
