import SoldierOfGoons.Lib.Replication
import Mathlib.Algebra.BigOperators.Ring.Finset
import Mathlib.Data.Fintype.BigOperators

/-!
How many messages are still to be sent and received before a link is quiet, if the source keeps its
value. Each message that is sent or received over one link of a family takes one off the sum.
-/

universe u v

namespace Link

variable {α : Type u} [DecidableEq α] {current : α} {l l' : Link α}

def backlog (current : α) (l : Link α) : Nat :=
  l.inFlight.length + if current = l.lastSent then 0 else 2

theorem backlog_send (h : l.send current = some l') : l'.backlog current + 1 = l.backlog current := by
  obtain ⟨hne, rfl⟩ := send_eq_some.mp h
  simp [backlog, hne]

theorem backlog_receive (current : α) {a : α} (h : l.receive = some (a, l'))
    : l'.backlog current + 1 = l.backlog current := by
  obtain ⟨hflight, hsent⟩ := receive_eq_some.mp h
  unfold backlog
  rw [hflight, hsent, List.length_cons]
  omega

theorem quiet_of_backlog (h : l.backlog current = 0) : l.Quiet current := by
  unfold backlog at h
  split at h
  . next heq => exact ⟨List.eq_nil_of_length_eq_zero h, heq.symm⟩
  . omega

theorem isSome_of_backlog (h : l.backlog current ≠ 0) : (l.send current).isSome ∨ l.receive.isSome := by
  unfold backlog at h
  unfold send receive
  split at h
  . next heq =>
    rw [if_pos heq]
    right
    split
    . next hnil =>
      rw [hnil] at h
      exact absurd rfl h
    . rfl
  . next hne =>
    rw [if_neg hne]
    exact Or.inl rfl

end Link

section Sum

variable {ι : Type v} [Fintype ι] [DecidableEq ι]

theorem sum_succ_of_ne {f g : ι → Nat} (i : ι) (hi : f i + 1 = g i) (hne : ∀ j, j ≠ i → f j = g j)
    : ∑ j, f j + 1 = ∑ j, g j := by
  rw [← Finset.add_sum_erase Finset.univ f (Finset.mem_univ i),
    ← Finset.add_sum_erase Finset.univ g (Finset.mem_univ i), ← hi]
  have herase : ∑ j ∈ Finset.univ.erase i, f j = ∑ j ∈ Finset.univ.erase i, g j := by
    apply Finset.sum_congr rfl
    intro j hj
    exact hne j (Finset.ne_of_mem_erase hj)
  omega

theorem Link.sum_backlog_update {α : Type u} [DecidableEq α] (current : ι → α) {links : ι → Link α}
    {i : ι} {l : Link α} (h : l.backlog (current i) + 1 = (links i).backlog (current i))
    : ∑ j, (Function.update links i l j).backlog (current j) + 1
        =
      ∑ j, (links j).backlog (current j) := by
  apply sum_succ_of_ne i
  . rw [Function.update_self]
    exact h
  . intro j hj
    rw [Function.update_of_ne hj]

end Sum
