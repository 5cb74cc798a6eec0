import Mathlib.Data.List.Basic

/-!
Replication of one property to one receiver: the source sends its current value when that differs
from the last one it sent, and the values arrive in order after any delay. What the receiver does
with a value is not part of a link. A link is quiet when there is nothing to send and nothing in
flight, and it carries its values to a receiver that ends up with the last one sent.
-/

universe u

structure Link (α : Type u) where
  lastSent : α
  inFlight : List α

namespace Link

variable {α : Type u}

def initial (a : α) : Link α where
  lastSent := a
  inFlight := []

def send [DecidableEq α] (current : α) (l : Link α) : Option (Link α) :=
  if current = l.lastSent then
    none
  else
    some ⟨current, l.inFlight ++ [current]⟩

def receive (l : Link α) : Option (α × Link α) :=
  match l.inFlight with
  | [] => none
  | a :: inFlight => some (a, { l with inFlight })

def Quiet (current : α) (l : Link α) : Prop :=
  l.inFlight = [] ∧ l.lastSent = current

def Carries (view : α) (l : Link α) : Prop :=
  l.inFlight.getLastD view = l.lastSent

theorem carries_initial (a : α) : (initial a).Carries a := rfl

theorem Carries.view_eq {view current : α} {l : Link α} (h : l.Carries view)
    (hquiet : l.Quiet current) : view = current := by
  unfold Carries at h
  rw [hquiet.1, hquiet.2] at h
  exact h

theorem Carries.lastSent {view : α} {l : Link α} (h : l.Carries view) : l.Carries l.lastSent := by
  unfold Carries at h ⊢
  cases hflight : l.inFlight with
  | nil => rfl
  | cons a inFlight =>
    rw [hflight, List.getLastD_cons] at h
    rw [List.getLastD_cons]
    exact h

section Send

variable [DecidableEq α] {current : α} {l l' : Link α}

theorem send_eq_some
    : l.send current = some l' ↔ current ≠ l.lastSent ∧ l' = ⟨current, l.inFlight ++ [current]⟩ := by
  unfold send
  split
  . next h => simp [h]
  . next h => simp [h, eq_comm]

theorem lastSent_send (h : l.send current = some l') : l'.lastSent = current := by
  rw [(send_eq_some.mp h).2]

theorem inFlight_send (h : l.send current = some l') : l'.inFlight = l.inFlight ++ [current] := by
  rw [(send_eq_some.mp h).2]

theorem Carries.send (view : α) (h : l.send current = some l') : l'.Carries view := by
  unfold Carries
  rw [inFlight_send h, lastSent_send h]
  simp [List.getLastD_eq_getLast?]

end Send

section Receive

variable {a : α} {l l' : Link α}

theorem receive_eq_some
    : l.receive = some (a, l') ↔ l.inFlight = a :: l'.inFlight ∧ l'.lastSent = l.lastSent := by
  unfold receive
  constructor
  . intro h
    split at h
    . cases h
    . next heq =>
      cases h
      exact ⟨heq, rfl⟩
  . rintro ⟨hflight, hsent⟩
    rw [hflight]
    cases l'
    simp_all

theorem Carries.receive {view : α} (hl : l.Carries view) (h : l.receive = some (a, l'))
    : l'.Carries a := by
  obtain ⟨hflight, hsent⟩ := receive_eq_some.mp h
  unfold Carries at hl ⊢
  rw [hflight, List.getLastD_cons] at hl
  rw [hl, hsent]

end Receive

/-!
A source that leaves its first value at most once, for a value in `P`, and then stays in `P`.
-/

structure OneWay (P : α → Prop) (first current : α) (l : Link α) : Prop where
  source : P current ∨ current = first
  sent : P l.lastSent ∧ P current ∨ l.lastSent = first
  arriving : ∀ a ∈ l.inFlight, P a

namespace OneWay

variable {P : α → Prop} {first current : α} {l l' : Link α}

theorem initial (P : α → Prop) (first : α) : OneWay P first first (.initial first) := by
  constructor
  . exact Or.inr rfl
  . exact Or.inr rfl
  . intro a ha
    cases ha

theorem change (h : OneWay P first current l) {next : α} (hnext : next = current ∨ P next)
    : OneWay P first next l := by
  rcases hnext with rfl | hnext
  . exact h
  . constructor
    . exact Or.inl hnext
    . exact h.sent.imp_left fun hsent => ⟨hsent.1, hnext⟩
    . apply h.arriving

theorem send [DecidableEq α] (h : OneWay P first current l) (hsend : l.send current = some l')
    : OneWay P first current l' := by
  obtain ⟨hne, rfl⟩ := send_eq_some.mp hsend
  have hcurrent : P current := by
    rcases h.source with hcurrent | hfirst
    . exact hcurrent
    . rcases h.sent with ⟨_, hcurrent⟩ | hsent
      . exact hcurrent
      . exact absurd (hfirst.trans hsent.symm) hne
  constructor
  . apply h.source
  . exact Or.inl ⟨hcurrent, hcurrent⟩
  . intro a ha
    rcases List.mem_append.mp ha with ha | ha
    . apply h.arriving a ha
    . rw [List.mem_singleton.mp ha]
      exact hcurrent

theorem receive (h : OneWay P first current l) {a : α} (hreceive : l.receive = some (a, l'))
    : P a ∧ OneWay P first current l' := by
  obtain ⟨hflight, hsent⟩ := receive_eq_some.mp hreceive
  have harriving := h.arriving
  rw [hflight] at harriving
  refine ⟨harriving a List.mem_cons_self, ?_⟩
  constructor
  . apply h.source
  . rw [hsent]
    apply h.sent
  . intro b hb
    apply harriving b (List.mem_cons_of_mem a hb)

end OneWay

/-!
Whatever holds of the source's value for good holds of each value on its way.
-/

structure Within (P : α → Prop) (l : Link α) : Prop where
  sent : P l.lastSent
  arriving : ∀ a ∈ l.inFlight, P a

namespace Within

variable {P Q : α → Prop} {l l' : Link α}

theorem initial {first : α} (h : P first) : Within P (.initial first) := by
  refine ⟨h, ?_⟩
  intro a ha
  cases ha

theorem mono (h : Within P l) (hPQ : ∀ a, P a → Q a) : Within Q l :=
  ⟨hPQ _ h.sent, fun a ha => hPQ a (h.arriving a ha)⟩

theorem send [DecidableEq α] {current : α} (h : Within P l) (hcurrent : P current)
    (hsend : l.send current = some l') : Within P l' := by
  obtain ⟨_, rfl⟩ := send_eq_some.mp hsend
  refine ⟨hcurrent, ?_⟩
  intro a ha
  rcases List.mem_append.mp ha with ha | ha
  . exact h.arriving a ha
  . rw [List.mem_singleton.mp ha]
    exact hcurrent

theorem receive (h : Within P l) {a : α} (hreceive : l.receive = some (a, l'))
    : P a ∧ Within P l' := by
  obtain ⟨hflight, hsent⟩ := receive_eq_some.mp hreceive
  have harriving := h.arriving
  rw [hflight] at harriving
  refine ⟨harriving a List.mem_cons_self, ?_, ?_⟩
  . rw [hsent]
    exact h.sent
  . intro b hb
    exact harriving b (List.mem_cons_of_mem a hb)

end Within

/-!
What is still on its way: the values in flight and then the current one, unless it was the last sent.
A change of the source may put out of the way a value that was never sent.
-/

section Ahead

variable [DecidableEq α] {current : α} {l l' : Link α}

def ahead (current : α) (l : Link α) : List α :=
  l.inFlight ++ if current = l.lastSent then [] else [current]

theorem ahead_initial (a : α) : (initial a).ahead a = [] := by
  simp [ahead, initial]

theorem ahead_send (h : l.send current = some l') : l'.ahead current = l.ahead current := by
  obtain ⟨hne, rfl⟩ := send_eq_some.mp h
  simp [ahead, hne]

theorem ahead_receive {a : α} (h : l.receive = some (a, l'))
    : l.ahead current = a :: l'.ahead current := by
  obtain ⟨hflight, hsent⟩ := receive_eq_some.mp h
  unfold ahead
  rw [hflight, hsent, List.cons_append]

theorem ahead_change (next : α) : (l.ahead next).Sublist (l.ahead current ++ [next]) := by
  unfold ahead
  rw [List.append_assoc]
  apply List.Sublist.append_left
  split
  . apply List.nil_sublist
  . apply List.sublist_append_right

end Ahead

end Link
