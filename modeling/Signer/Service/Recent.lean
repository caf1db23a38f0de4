import Mathlib.Data.List.AList
import Mathlib.Data.List.Count
import Mathlib.Data.List.DropRight

/-!
# Keys that are admitted unless they are recent

A guard admits a key unless it is among the last `cap` it has admitted.
-/

namespace Signer.Recent

variable {κ : Type} {cap : ℕ} {history pre mid post stretch : List κ} {k : κ}

/-- A history in which each key is absent from the last `cap` before it. -/
inductive Admitted (cap : ℕ) : List κ → Prop
  | nil : Admitted cap []
  | snoc {history : List κ} {k : κ} : Admitted cap history → k ∉ history.rtake cap →
      Admitted cap (history ++ [k])

theorem mem_rtake_of_length_lt (h : mid.length < cap) : k ∈ (pre ++ k :: mid).rtake cap := by
  have hdrop : (pre ++ k :: mid).length - cap ≤ pre.length := by
    simp only [List.length_append, List.length_cons]
    omega
  rw [List.rtake, List.drop_append_of_le_length hdrop]
  simp

theorem Admitted.of_append (h : Admitted cap (pre ++ post)) : Admitted cap pre := by
  induction post using List.reverseRecOn with
  | nil => simpa using h
  | append_singleton post last ih =>
    generalize hlist : pre ++ (post ++ [last]) = l at h
    cases h with
    | nil => simp at hlist
    | snoc hprev hk =>
      rw [← List.append_assoc] at hlist
      obtain ⟨rfl, -⟩ := List.append_inj' hlist rfl
      exact ih hprev

theorem Admitted.not_recent (h : Admitted cap (pre ++ k :: post)) : k ∉ pre.rtake cap := by
  have hkey : Admitted cap (pre ++ [k]) := by
    refine Admitted.of_append (?_ : Admitted cap (pre ++ [k] ++ post))
    simpa using h
  generalize hlist : pre ++ [k] = l at hkey
  cases hkey with
  | nil => simp at hlist
  | snoc hprev hk =>
    obtain ⟨rfl, hlast⟩ := List.append_inj' hlist rfl
    obtain rfl := (List.cons.inj hlast).1
    exact hk

theorem Admitted.of_range {f : ℕ → κ} {n : ℕ}
    (h : ∀ i j, i < j → j < n → f i = f j → cap < j - i) : Admitted cap ((List.range n).map f) := by
  induction n with
  | zero => exact .nil
  | succ n ih =>
    rw [List.range_succ, List.map_append, List.map_singleton]
    refine (ih fun i j hij hj => h i j hij (hj.trans (Nat.lt_succ_self n))).snoc ?_
    rw [List.rtake, ← List.map_drop, List.mem_map]
    rintro ⟨i, hi, heq⟩
    rw [List.mem_drop_iff_getElem] at hi
    obtain ⟨j, hj, rfl⟩ := hi
    simp only [List.length_map, List.length_range, List.getElem_range] at hj heq
    have := h _ n (by omega) (Nat.lt_succ_self n) heq
    omega

/-- A key comes back only after `cap` others. -/
theorem Admitted.le_length (h : Admitted cap (pre ++ k :: mid ++ k :: post)) :
    cap ≤ mid.length := by
  by_contra hlt
  exact h.not_recent (mem_rtake_of_length_lt (by omega))

/-- A key is in a stretch at most once, if fewer than `cap` others are. -/
theorem Admitted.count_le_one [DecidableEq κ] (h : Admitted cap (pre ++ stretch))
    (hothers : stretch.countP (· ≠ k) < cap) : stretch.count k ≤ 1 := by
  induction stretch generalizing pre with
  | nil => simp
  | cons x stretch ih =>
    by_cases hx : x = k
    · subst hx
      rw [List.count_cons_self]
      have hnot : x ∉ stretch := by
        intro hmem
        -- the next occurrence: what lies in between is all different from the key
        obtain ⟨mid, rest, rfl, hmid⟩ := List.eq_append_cons_of_mem hmem
        have hsplit : Admitted cap (pre ++ x :: mid ++ x :: rest) := by simpa using h
        have hcap := hsplit.le_length
        have hfilter : mid.filter (· ≠ x) = mid :=
          List.filter_eq_self.mpr fun y hy => by simpa using fun heq : y = x => hmid (heq ▸ hy)
        rw [List.countP_eq_length_filter] at hothers
        simp only [List.filter_cons, List.filter_append, hfilter] at hothers
        simp at hothers
        omega
      rw [List.count_eq_zero_of_not_mem hnot]
    · rw [List.count_cons_of_ne hx]
      have hrest : Admitted cap (pre ++ [x] ++ stretch) := by simpa using h
      refine ih hrest ?_
      rw [List.countP_cons_of_pos (by simpa using hx)] at hothers
      omega

theorem rtake_concat (hcap : 0 < cap) :
    (history ++ [k]).rtake cap =
      (if history.length < cap then history.rtake cap else (history.rtake cap).tail) ++ [k] := by
  obtain ⟨n, rfl⟩ := Nat.exists_eq_succ_of_ne_zero (by omega : cap ≠ 0)
  rw [List.rtake_concat_succ]
  congr 1
  split
  · rename_i hlt
    have hzero : history.length - n = 0 := by omega
    have hzero' : history.length - (n + 1) = 0 := by omega
    simp [List.rtake, hzero, hzero']
  · rename_i hge
    have hsub : history.length - n = history.length - (n + 1) + 1 := by omega
    simp [List.rtake, hsub]

theorem length_rtake : (history.rtake cap).length = min cap history.length := by
  simp only [List.rtake, List.length_drop]
  omega

theorem rdrop_append_rtake (history : List κ) (cap : ℕ) :
    history.rdrop cap ++ history.rtake cap = history :=
  List.take_append_drop _ _

theorem rtake_append (history stretch : List κ) (cap : ℕ) :
    (history ++ stretch).rtake (stretch.length + cap) = history.rtake cap ++ stretch := by
  have hdrop : (history ++ stretch).length - (stretch.length + cap) = history.length - cap := by
    rw [List.length_append]
    omega
  rw [List.rtake, hdrop, List.drop_append_of_le_length (Nat.sub_le _ _), List.rtake]

theorem rtake_rtake {n : ℕ} (h : n ≤ cap) : (history.rtake cap).rtake n = history.rtake n := by
  have hdrop : (history.rtake cap).length - n + (history.length - cap) = history.length - n := by
    rw [length_rtake]
    omega
  rw [List.rtake, List.rtake, List.drop_drop, List.rtake] at *
  rw [Nat.add_comm, hdrop]

theorem mem_rtake_iff_length_lt (hk : k ∉ mid) :
    k ∈ (pre ++ k :: mid).rtake cap ↔ mid.length < cap := by
  refine ⟨fun hmem => ?_, mem_rtake_of_length_lt⟩
  by_contra hge
  have hmid : (pre ++ [k] ++ mid).rtake cap = mid.rtake cap := by
    rw [List.rtake, List.rtake, List.length_append, List.drop_append]
    have hlong : (pre ++ [k]).length + mid.length - cap =
        (pre ++ [k]).length + (mid.length - cap) := by
      omega
    rw [hlong, List.drop_eq_nil_of_le (Nat.le_add_right _ _), Nat.add_sub_cancel_left,
      List.nil_append]
  have hsplit : pre ++ k :: mid = pre ++ [k] ++ mid := by simp
  rw [hsplit, hmid] at hmem
  exact hk (List.mem_of_mem_drop hmem)

theorem mem_rtake_iff_of_nodup (h : history.Nodup) (k : κ) (cap : ℕ) :
    k ∈ history.rtake cap ↔ k ∈ history ∧ k ∉ history.rdrop cap := by
  have hsplit := rdrop_append_rtake history cap
  rw [← hsplit, List.nodup_append] at h
  constructor
  · intro hmem
    exact ⟨List.mem_of_mem_drop hmem, fun hfirst => h.2.2 k hfirst k hmem rfl⟩
  · rintro ⟨hmem, hlast⟩
    rw [← hsplit, List.mem_append] at hmem
    exact hmem.resolve_left hlast

theorem Admitted.nodup (h : Admitted cap (pre ++ stretch ++ post))
    (hlength : stretch.length ≤ cap + 1) :
    stretch.Nodup := by
  classical
  rw [List.nodup_iff_count_le_one]
  intro k
  by_contra htwice
  have hothers : stretch.countP (· ≠ k) < cap := by
    have hsum := List.length_eq_countP_add_countP (· == k) (l := stretch)
    have hne : stretch.countP (fun a => decide (¬(a == k) = true)) = stretch.countP (· ≠ k) :=
      List.countP_congr fun a _ => by simp
    rw [hne] at hsum
    rw [List.count] at htwice
    omega
  exact htwice (h.of_append.count_le_one hothers)

theorem Admitted.nodup_take {reach : ℕ} (h : Admitted cap (pre ++ k :: mid)) (hk : k ∉ mid)
    (hnew : ∀ first x rest, mid = first ++ x :: rest →
      x ∉ (pre ++ k :: first).rtake reach ∨ k ∈ (pre ++ k :: first).rtake cap) :
    (mid.take reach).Nodup := by
  induction mid using List.reverseRecOn with
  | nil => simp
  | append_singleton first x ih =>
    have hsplit : pre ++ k :: (first ++ [x]) = pre ++ k :: first ++ [x] := by simp
    rw [hsplit] at h
    have hkfirst : k ∉ first := fun hmem => hk (List.mem_append_left _ hmem)
    have hfirst := ih h.of_append hkfirst fun f y r hr => hnew f y (r ++ [x]) (by simp [hr])
    by_cases hlong : reach ≤ first.length
    · rwa [List.take_append_of_le_length hlong]
    · rw [List.take_of_length_le (by simp; omega)]
      rw [List.take_of_length_le (by omega)] at hfirst
      refine hfirst.append (List.nodup_singleton x) ?_
      rw [List.disjoint_singleton]
      intro hx
      obtain ⟨f, r, rfl⟩ := List.append_of_mem hx
      -- a repetition within reach is not new, so it came while `k` was recent, and so was `x`
      rcases hnew _ x [] rfl with hfar | hrecent
      · refine hfar ?_
        have hlist : pre ++ k :: (f ++ x :: r) = pre ++ k :: f ++ x :: r := by simp
        rw [hlist]
        exact mem_rtake_of_length_lt (by simp at hlong; omega)
      · rw [mem_rtake_iff_length_lt hkfirst] at hrecent
        refine h.not_recent ?_
        have hlist : pre ++ k :: (f ++ x :: r) = pre ++ k :: f ++ x :: r := by simp
        rw [hlist]
        exact mem_rtake_of_length_lt (by simp at hrecent; omega)

theorem length_entries_of_mem_iff {ν : Type} {order : List κ} {table : AList fun _ : κ => ν}
    (hnodup : order.Nodup) (hmem : ∀ k, k ∈ order ↔ k ∈ table) :
    table.entries.length = order.length := by
  have hperm : table.keys.Perm order :=
    (List.perm_ext_iff_of_nodup table.keys_nodup hnodup).mpr fun k => by
      rw [← AList.mem_keys]
      exact (hmem k).symm
  rw [← hperm.length_eq]
  simp [AList.keys, List.keys]

end Signer.Recent
