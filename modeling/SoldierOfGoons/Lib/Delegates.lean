import Mathlib.Data.List.Basic

/-!
The bindings of a multicast delegate, by handle and in the order they were added. `next` is the
handle the next binding gets, `0` is the invalid handle; a binding is removed by its handle.
-/

structure Registrations where
  handles : List Nat
  next : Nat
  fresh : ∀ h ∈ handles, h < next
  valid : 0 < next

namespace Registrations

def empty : Registrations where
  handles := []
  next := 1
  fresh := by simp
  valid := by omega

def add (r : Registrations) : Registrations where
  handles := r.handles ++ [r.next]
  next := r.next + 1
  fresh := by
    intro h hh
    rcases List.mem_append.mp hh with hh | hh
    . have := r.fresh h hh
      omega
    . have := List.mem_singleton.mp hh
      omega
  valid := by omega

def clear (r : Registrations) (handle : Nat) : Registrations where
  handles := r.handles.filter (· ≠ handle)
  next := r.next
  fresh := by
    intro h hh
    apply r.fresh h (List.mem_of_mem_filter hh)
  valid := r.valid

@[simp]
theorem handles_empty : empty.handles = [] := rfl

@[simp]
theorem handles_add (r : Registrations) : r.add.handles = r.handles ++ [r.next] := rfl

@[simp]
theorem next_add (r : Registrations) : r.add.next = r.next + 1 := rfl

@[simp]
theorem next_clear (r : Registrations) (handle : Nat) : (r.clear handle).next = r.next := rfl

theorem handles_clear (r : Registrations) (handle : Nat)
    : (r.clear handle).handles = r.handles.filter (· ≠ handle) := rfl

theorem mem_clear {r : Registrations} {handle h : Nat}
    : h ∈ (r.clear handle).handles ↔ h ∈ r.handles ∧ h ≠ handle := by
  simp [handles_clear]

theorem handles_clear_of_subset {r : Registrations} {handle : Nat}
    (h : ∀ h ∈ r.handles, h = handle) : (r.clear handle).handles = [] := by
  rw [handles_clear, List.filter_eq_nil_iff]
  intro a ha
  simp [h a ha]

end Registrations
