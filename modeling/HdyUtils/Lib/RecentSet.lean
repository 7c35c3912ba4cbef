import HdyUtils.Lib.Maps

/-! A set of at most `cap` elements that forgets the one recorded first when a further one is
recorded: a queue in order of recording and a set with the same elements. -/

open Std

variable {α : Type*} [Ord α]

structure RecentSet (α : Type*) [Ord α] (cap : Nat) where
  queue : List α
  members : TreeSet α
  agree : ∀ a, a ∈ members ↔ a ∈ queue
  nodup : queue.Nodup
  bounded : queue.length ≤ cap

namespace RecentSet

variable {cap : Nat}

def empty : RecentSet α cap := ⟨[], ∅, by simp, List.nodup_nil, Nat.zero_le _⟩

instance : Membership α (RecentSet α cap) := ⟨fun c a => a ∈ c.queue⟩

theorem mem_def {c : RecentSet α cap} {a : α} : a ∈ c ↔ a ∈ c.queue := Iff.rfl

def contains (c : RecentSet α cap) (a : α) : Bool := c.members.contains a

@[simp] theorem contains_iff {c : RecentSet α cap} {a : α} : c.contains a = true ↔ a ∈ c := by
  rw [contains, TreeSet.contains_iff_mem, c.agree, mem_def]

instance (c : RecentSet α cap) (a : α) : Decidable (a ∈ c) :=
  decidable_of_iff _ contains_iff

@[simp] theorem not_mem_empty (a : α) : a ∉ (empty : RecentSet α cap) := by simp [mem_def, empty]

/-- The queue after recording `a`: at the end, and with its first element gone if it is too long. -/
def push (cap : Nat) (queue : List α) (a : α) : List α :=
  if cap < (queue ++ [a]).length then (queue ++ [a]).tail else queue ++ [a]

variable [TransOrd α] [LawfulEqOrd α]

/-- Records an element. -/
def record (c : RecentSet α cap) (a : α) : RecentSet α cap :=
  if h : c.contains a then c
  else
    { queue := push cap c.queue a
      members :=
        if cap < (c.queue ++ [a]).length then
          match (c.queue ++ [a]).head? with
          | some old => (c.members.insert a).erase old
          | none => c.members.insert a
        else c.members.insert a
      agree := by
        have hnd : (c.queue ++ [a]).Nodup := by
          rw [contains_iff, mem_def] at h
          exact c.nodup.append (List.nodup_singleton a) (by simpa using h)
        have hins : ∀ b, b ∈ c.members.insert a ↔ b ∈ c.queue ++ [a] := by
          intro b
          rw [Maps.mem_insert, c.agree]
          simp [or_comm, eq_comm]
        intro b
        unfold push
        split
        · cases hq : c.queue ++ [a] with
          | nil => simp at hq
          | cons old rest =>
            rw [hq] at hnd
            have hb := hins b
            rw [hq] at hb
            have hold : old ∉ rest := (List.nodup_cons.mp hnd).1
            simp only [List.head?_cons, List.tail_cons, Maps.mem_erase, hb, List.mem_cons]
            grind
        · exact hins b
      nodup := by
        have hnd : (c.queue ++ [a]).Nodup := by
          rw [contains_iff, mem_def] at h
          exact c.nodup.append (List.nodup_singleton a) (by simpa using h)
        unfold push
        split
        · exact hnd.tail
        · exact hnd
      bounded := by
        have := c.bounded
        unfold push
        split
        · simpa using this
        · omega }

theorem record_of_mem {c : RecentSet α cap} {a : α} (h : a ∈ c) : c.record a = c :=
  dif_pos (contains_iff.mpr h)

theorem mem_of_mem_record {c : RecentSet α cap} {a b : α} (h : b ∈ c.record a) :
    b = a ∨ b ∈ c := by
  unfold record at h
  split at h
  · exact .inr h
  · have hpush : b ∈ push cap c.queue a := h
    have hmem : b ∈ c.queue ++ [a] := by
      unfold push at hpush
      split at hpush
      · exact List.mem_of_mem_tail hpush
      · exact hpush
    rcases List.mem_append.mp hmem with hb | hb
    · exact .inr hb
    · exact .inl (by simpa using hb)

theorem mem_record_self (hcap : 0 < cap) (c : RecentSet α cap) (a : α) : a ∈ c.record a := by
  unfold record
  split
  · rename_i h
    exact contains_iff.mp h
  · show a ∈ push cap c.queue a
    unfold push
    split
    · cases hq : c.queue with
      | nil =>
        rename_i hlen
        simp [hq] at hlen
        omega
      | cons old rest => simp
    · simp

/-- Nothing is forgotten while all that was ever recorded fits. -/
theorem mem_record_of_subset [DecidableEq α] {c : RecentSet α cap} {a b : α} {S : Finset α}
    (hS : S.card ≤ cap) (hc : ∀ x ∈ c, x ∈ S) (ha : a ∈ S) (hb : b ∈ c) : b ∈ c.record a := by
  unfold record
  split
  · exact hb
  · rename_i h
    rw [contains_iff, mem_def] at h
    have hnd : (c.queue ++ [a]).Nodup := c.nodup.append (List.nodup_singleton a) (by simpa using h)
    have hlen : (c.queue ++ [a]).length ≤ cap := by
      calc (c.queue ++ [a]).length = (c.queue ++ [a]).toFinset.card :=
            (List.toFinset_card_of_nodup hnd).symm
        _ ≤ S.card := Finset.card_le_card fun x hx => by
            rcases List.mem_append.mp (List.mem_toFinset.mp hx) with hx | hx
            · exact hc x hx
            · rwa [List.mem_singleton.mp hx]
        _ ≤ cap := hS
    show b ∈ push cap c.queue a
    rw [push, if_neg (by omega)]
    exact List.mem_append_left _ hb

end RecentSet
