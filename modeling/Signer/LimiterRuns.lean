import Mathlib.Data.Finset.Card
import Signer.RateLimiter
import Signer.Service.Recent
import Signer.Service.Run

/-!
# The two queues of the rate limiter

Both tables of the limiter are stretches of one history, the keys in the order of their insertion
into the live table. The live keys are its end, the ghosts are the stretch before, less the keys
that came back.
-/

namespace Signer

namespace RateLimiter

variable {capacity rate now : Nat} {key k : String} {s : RateLimiter} {older : List String}

theorem maxTrackedKeys_pos : 0 < maxTrackedKeys := by decide

/-! ### Trimming the ghosts -/

theorem trimGhosts_snd (ghost : AList fun _ : String => Bucket) (order : List String) :
    (trimGhosts ghost order).2 = order.rtake (maxTrackedKeys - 1) := by
  induction order generalizing ghost with
  | nil => simp [trimGhosts]
  | cons stale rest ih =>
    unfold trimGhosts
    split
    · rename_i hlong
      have hdrop : (stale :: rest).length - (maxTrackedKeys - 1) =
          rest.length - (maxTrackedKeys - 1) + 1 := by
        simp only [List.length_cons] at hlong ⊢
        omega
      rw [ih, List.rtake, List.rtake, hdrop, List.drop_succ_cons]
    · rename_i hshort
      have hdrop : (stale :: rest).length - (maxTrackedKeys - 1) = 0 := by omega
      rw [List.rtake, hdrop, List.drop_zero]

theorem mem_trimGhosts {ghost : AList fun _ : String => Bucket} {order : List String} :
    k ∈ (trimGhosts ghost order).1 ↔ k ∈ ghost ∧ k ∉ order.rdrop (maxTrackedKeys - 1) := by
  induction order generalizing ghost with
  | nil => simp [trimGhosts]
  | cons stale rest ih =>
    unfold trimGhosts
    split
    · rename_i hlong
      have htake : (stale :: rest).length - (maxTrackedKeys - 1) =
          rest.length - (maxTrackedKeys - 1) + 1 := by
        simp only [List.length_cons] at hlong ⊢
        omega
      rw [ih, List.rdrop, List.rdrop, htake, List.take_succ_cons, AList.mem_erase, List.mem_cons]
      grind
    · rename_i hshort
      have htake : (stale :: rest).length - (maxTrackedKeys - 1) = 0 := by omega
      rw [List.rdrop, htake, List.take_zero]
      simp

theorem lookup_trimGhosts {ghost : AList fun _ : String => Bucket} {order : List String}
    (h : k ∈ (trimGhosts ghost order).1) :
    (trimGhosts ghost order).1.lookup k = ghost.lookup k := by
  induction order generalizing ghost with
  | nil => rfl
  | cons stale rest ih =>
    unfold trimGhosts at h ⊢
    split
    · rename_i hlong
      rw [if_pos hlong] at h
      rw [ih h, AList.lookup_erase_ne (AList.mem_erase.mp (mem_trimGhosts.mp h).1).1]
    · rfl

/-! ### One check -/

def spend (capacity rate now : Nat) (b : Bucket) : Bucket :=
  let tokens := refill capacity rate now b
  { tokens := if 1 ≤ tokens then tokens - 1 else tokens, lastRefill := now }

theorem mem_makeLive (capacity now : Nat) (key : String) (s : RateLimiter) :
    key ∈ (s.makeLive capacity now key).buckets := by
  unfold makeLive
  split
  · assumption
  · exact (AList.mem_insert _).mpr (.inl rfl)

theorem check_eq (capacity rate now : Nat) (key : String) (s : RateLimiter) :
    ∃ b, (s.makeLive capacity now key).buckets.lookup key = some b ∧
    s.check capacity rate now key = (decide (1 ≤ refill capacity rate now b),
      { s.makeLive capacity now key with
        buckets := (s.makeLive capacity now key).buckets.insert key
          (spend capacity rate now b) }) := by
  obtain ⟨b, hb⟩ := Option.isSome_iff_exists.mp
    (AList.lookup_isSome.mpr (mem_makeLive capacity now key s))
  refine ⟨b, hb, ?_⟩
  unfold check
  simp only [hb, spend]
  split <;> rename_i htokens <;> simp [htokens]

theorem mem_check : k ∈ (s.check capacity rate now key).2.buckets ↔
    k ∈ (s.makeLive capacity now key).buckets := by
  obtain ⟨b, -, hcheck⟩ := check_eq capacity rate now key s
  rw [hcheck, AList.mem_insert, or_iff_right_of_imp]
  rintro rfl
  exact mem_makeLive _ _ _ _

/-! ### The other keys -/

theorem evictOldest_cases (s : RateLimiter) :
    (s.evictOldest.buckets = s.buckets ∧ s.evictOldest.ghost = s.ghost) ∨
      ∃ oldest evicted, s.buckets.lookup oldest = some evicted ∧
        s.evictOldest.buckets = s.buckets.erase oldest ∧
        s.evictOldest.ghost = (trimGhosts s.ghost s.ghostOrder).1.insert oldest evicted := by
  unfold evictOldest
  split
  · exact .inl ⟨rfl, rfl⟩
  · split
    · exact .inl ⟨rfl, rfl⟩
    · split
      · exact .inl ⟨rfl, rfl⟩
      · rename_i hlookup
        exact .inr ⟨_, _, hlookup, rfl, rfl⟩

theorem lookup_evictOldest (h : k ∈ s.evictOldest.buckets) :
    s.evictOldest.buckets.lookup k = s.buckets.lookup k := by
  rcases s.evictOldest_cases with ⟨hbuckets, -⟩ | ⟨oldest, evicted, -, hbuckets, -⟩
  · rw [hbuckets]
  · rw [hbuckets] at h ⊢
    exact AList.lookup_erase_ne (AList.mem_erase.mp h).1

theorem mem_of_mem_ghost_evictOldest (h : k ∈ s.evictOldest.ghost) :
    k ∈ s.buckets ∨ k ∈ s.ghost := by
  rcases s.evictOldest_cases with ⟨-, hghost⟩ | ⟨oldest, evicted, hlookup, -, hghost⟩
  · exact .inr (hghost ▸ h)
  · rw [hghost, AList.mem_insert] at h
    rcases h with rfl | h
    · exact .inl (AList.lookup_isSome.mp (by simp [hlookup]))
    · exact .inr (mem_trimGhosts.mp h).1

theorem lookup_ghost_evictOldest (hkey : k ∉ s.buckets) (h : k ∈ s.evictOldest.ghost) :
    s.evictOldest.ghost.lookup k = s.ghost.lookup k := by
  rcases s.evictOldest_cases with ⟨-, hghost⟩ | ⟨oldest, evicted, hlookup, -, hghost⟩
  · rw [hghost]
  · have hne : k ≠ oldest := by
      rintro rfl
      exact hkey (AList.lookup_isSome.mp (by simp [hlookup]))
    rw [hghost, AList.mem_insert, or_iff_right hne] at h
    rw [hghost, AList.lookup_insert_ne hne, lookup_trimGhosts h]

theorem lookup_makeLive_of_ne (hne : k ≠ key) (h : k ∈ (s.makeLive capacity now key).buckets) :
    (s.makeLive capacity now key).buckets.lookup k = s.buckets.lookup k := by
  unfold makeLive at h ⊢
  split
  · rfl
  · rename_i hkey
    simp only [hkey, if_false, AList.mem_insert, hne, false_or] at h
    simp only [AList.lookup_insert_ne hne, lookup_evictOldest h]

theorem lookup_check_of_ne (hne : k ≠ key) (h : k ∈ (s.check capacity rate now key).2.buckets) :
    (s.check capacity rate now key).2.buckets.lookup k = s.buckets.lookup k := by
  rw [mem_check] at h
  obtain ⟨b, -, hcheck⟩ := check_eq capacity rate now key s
  rw [hcheck, AList.lookup_insert_ne hne, lookup_makeLive_of_ne hne h]

theorem mem_of_mem_check (hne : k ≠ key) (h : k ∈ (s.check capacity rate now key).2.buckets) :
    k ∈ s.buckets := by
  rw [← AList.lookup_isSome, ← lookup_check_of_ne hne h, AList.lookup_isSome]
  exact h

theorem mem_of_mem_ghost_check (h : k ∈ (s.check capacity rate now key).2.ghost) :
    k ∈ s.buckets ∨ k ∈ s.ghost := by
  obtain ⟨b, -, hcheck⟩ := check_eq capacity rate now key s
  rw [hcheck] at h
  simp only [makeLive] at h
  split at h
  · exact .inr h
  · exact mem_of_mem_ghost_evictOldest (AList.mem_erase.mp h).2

theorem lookup_ghost_check (hne : k ≠ key) (hkey : k ∉ s.buckets)
    (h : k ∈ (s.check capacity rate now key).2.ghost) :
    (s.check capacity rate now key).2.ghost.lookup k = s.ghost.lookup k := by
  obtain ⟨b, -, hcheck⟩ := check_eq capacity rate now key s
  rw [hcheck] at h ⊢
  simp only [makeLive] at h ⊢
  split
  · rfl
  · rename_i hnew
    simp only [hnew, if_false] at h ⊢
    rw [AList.lookup_erase_ne hne, lookup_ghost_evictOldest hkey (AList.mem_erase.mp h).2]

theorem lookup_ghost_of_evicted (hlive : k ∈ s.buckets)
    (h : k ∉ (s.check capacity rate now key).2.buckets) :
    (s.check capacity rate now key).2.ghost.lookup k = s.buckets.lookup k := by
  have hmakeLive := mt mem_check.mpr h
  obtain ⟨b, -, hcheck⟩ := check_eq capacity rate now key s
  rw [hcheck]
  simp only [makeLive] at hmakeLive ⊢
  split
  · rename_i hkey
    rw [if_pos hkey] at hmakeLive
    exact absurd hlive hmakeLive
  · rename_i hkey
    rw [if_neg hkey, AList.mem_insert, not_or] at hmakeLive
    rcases s.evictOldest_cases with ⟨hbuckets, -⟩ | ⟨oldest, evicted, hlookup, hbuckets, hghost⟩
    · exact absurd (hbuckets ▸ hlive) hmakeLive.2
    · have heq : k = oldest := by
        by_contra hne
        exact hmakeLive.2 (hbuckets ▸ AList.mem_erase.mpr ⟨hne, hlive⟩)
      subst heq
      rw [AList.lookup_erase_ne hmakeLive.1, hghost, AList.lookup_insert, hlookup]

theorem check_of_not_live (capacity rate now : Nat) (hkey : key ∉ s.buckets) :
    let b := (s.evictOldest.ghost.lookup key).getD { tokens := capacity, lastRefill := now }
    (s.check capacity rate now key).1 = decide (1 ≤ refill capacity rate now b) ∧
      (s.check capacity rate now key).2.buckets.lookup key = some (spend capacity rate now b) := by
  obtain ⟨b, hb, hcheck⟩ := check_eq capacity rate now key s
  rw [makeLive, if_neg hkey, AList.lookup_insert, Option.some.injEq] at hb
  subst hb
  rw [hcheck]
  exact ⟨rfl, AList.lookup_insert _⟩

/-! ### Restored and reset keys -/

/-- The key takes its old bucket back. -/
def Restores (key : String) (s : RateLimiter) : Prop :=
  key ∉ s.buckets ∧ key ∈ s.evictOldest.ghost

/-- The key starts a full bucket. -/
def Resets (key : String) (s : RateLimiter) : Prop :=
  key ∉ s.buckets ∧ key ∉ s.evictOldest.ghost

/-! ### The history behind the tables -/

/-- The tables are stretches of the history behind them. -/
structure Tracks (older : List String) (s : RateLimiter) : Prop where
  admitted : Recent.Admitted maxTrackedKeys (older ++ s.insertionOrder)
  length_le : s.insertionOrder.length ≤ maxTrackedKeys
  full : older ≠ [] → s.insertionOrder.length = maxTrackedKeys
  mem_buckets : ∀ k, k ∈ s.buckets ↔ k ∈ s.insertionOrder
  ghostOrder_eq : s.ghostOrder = older.rtake maxTrackedKeys
  mem_ghost : ∀ k, k ∈ s.ghost ↔ k ∈ s.ghostOrder ∧ k ∉ s.insertionOrder

/-- Queues and tables agree, share no key and are within the bound. -/
structure WellFormed (s : RateLimiter) : Prop where
  nodup_insertionOrder : s.insertionOrder.Nodup
  mem_insertionOrder : ∀ k, k ∈ s.insertionOrder ↔ k ∈ s.buckets
  nodup_ghostOrder : s.ghostOrder.Nodup
  mem_ghostOrder : ∀ k ∈ s.ghost, k ∈ s.ghostOrder
  disjoint : ∀ k, ¬ (k ∈ s.buckets ∧ k ∈ s.ghost)
  buckets_le : s.buckets.entries.length ≤ maxTrackedKeys
  insertionOrder_le : s.insertionOrder.length ≤ maxTrackedKeys
  ghost_le : s.ghost.entries.length ≤ maxTrackedKeys
  ghostOrder_le : s.ghostOrder.length ≤ maxTrackedKeys

namespace Tracks

theorem empty : Tracks [] {} where
  admitted := .nil
  length_le := Nat.zero_le _
  full := fun h => absurd rfl h
  mem_buckets := by simp
  ghostOrder_eq := rfl
  mem_ghost := by simp

variable (h : Tracks older s)

include h

theorem nodup_insertionOrder : s.insertionOrder.Nodup := by
  have hadmitted : Recent.Admitted maxTrackedKeys (older ++ s.insertionOrder ++ []) := by
    simpa using h.admitted
  exact hadmitted.nodup (h.length_le.trans (Nat.le_succ _))

theorem nodup_ghostOrder : s.ghostOrder.Nodup := by
  have hadmitted : Recent.Admitted maxTrackedKeys
      (older.rdrop maxTrackedKeys ++ older.rtake maxTrackedKeys ++ s.insertionOrder) := by
    rw [Recent.rdrop_append_rtake]
    exact h.admitted
  rw [h.ghostOrder_eq]
  refine hadmitted.nodup ?_
  rw [Recent.length_rtake]
  omega

theorem length_entries :
    s.buckets.entries.length = s.insertionOrder.length :=
  Recent.length_entries_of_mem_iff h.nodup_insertionOrder fun k => (h.mem_buckets k).symm

theorem evictOldest_of_room (hroom : s.insertionOrder.length < maxTrackedKeys) :
    s.evictOldest = s := by
  rw [evictOldest, if_pos (h.length_entries ▸ hroom)]

theorem evictOldest_of_full (hfull : s.insertionOrder.length = maxTrackedKeys) :
    ∃ oldest rest bucket, s.insertionOrder = oldest :: rest ∧
      s.evictOldest =
        { buckets := s.buckets.erase oldest
          insertionOrder := rest
          ghost := (trimGhosts s.ghost s.ghostOrder).1.insert oldest bucket
          ghostOrder := (trimGhosts s.ghost s.ghostOrder).2 ++ [oldest] } := by
  cases horder : s.insertionOrder with
  | nil =>
    rw [horder] at hfull
    exact absurd hfull (by decide)
  | cons oldest rest =>
    have hlive : oldest ∈ s.buckets := (h.mem_buckets oldest).mpr (by simp [horder])
    obtain ⟨bucket, hbucket⟩ := Option.isSome_iff_exists.mp (AList.lookup_isSome.mpr hlive)
    refine ⟨oldest, rest, bucket, rfl, ?_⟩
    rw [evictOldest, if_neg (by rw [h.length_entries]; omega), horder]
    simp only [hbucket]

theorem eq_nil_of_room (hroom : s.insertionOrder.length < maxTrackedKeys) :
    older = [] := by
  by_contra hne
  have hfull := h.full hne
  omega

theorem mem_buckets_iff :
    k ∈ s.buckets ↔ k ∈ (older ++ s.insertionOrder).rtake maxTrackedKeys := by
  rw [h.mem_buckets]
  rcases h.length_le.lt_or_eq with hroom | hfull
  · have hzero : s.insertionOrder.length - maxTrackedKeys = 0 := by omega
    rw [h.eq_nil_of_room hroom, List.nil_append, List.rtake, hzero, List.drop_zero]
  · have hlast := Recent.rtake_append older s.insertionOrder 0
    rw [Nat.add_zero, hfull, List.rtake_zero, List.nil_append] at hlast
    rw [hlast]

theorem mem_ghost_evictOldest_iff (hkey : key ∉ s.buckets) :
    key ∈ s.evictOldest.ghost ↔ key ∈ (older ++ s.insertionOrder).rtake
      (2 * maxTrackedKeys - 1) := by
  have hnotLive : key ∉ s.insertionOrder := fun hmem => hkey ((h.mem_buckets key).mpr hmem)
  rcases h.length_le.lt_or_eq with hroom | hfull
  · have hghost : key ∉ s.ghost := by
      rw [h.mem_ghost, h.ghostOrder_eq, h.eq_nil_of_room hroom]
      simp
    rw [h.evictOldest_of_room hroom, h.eq_nil_of_room hroom]
    refine iff_of_false hghost fun hmem => hnotLive (List.mem_of_mem_drop hmem)
  · obtain ⟨oldest, rest, bucket, horder, hevict⟩ := h.evictOldest_of_full hfull
    have hne : key ≠ oldest := by
      rintro rfl
      exact hnotLive (by simp [horder])
    have hreach : 2 * maxTrackedKeys - 1 = s.insertionOrder.length + (maxTrackedKeys - 1) := by
      have := maxTrackedKeys_pos
      omega
    have hghosts := Recent.mem_rtake_iff_of_nodup h.nodup_ghostOrder key (maxTrackedKeys - 1)
    rw [hevict, hreach, Recent.rtake_append, AList.mem_insert, mem_trimGhosts, h.mem_ghost,
      List.mem_append, ← Recent.rtake_rtake (Nat.sub_le maxTrackedKeys 1), ← h.ghostOrder_eq,
      hghosts]
    grind

theorem makeLive (hkey : key ∉ s.buckets) (capacity now : Nat) :
    ∃ evicted, s.insertionOrder ++ [key] =
        evicted ++ (s.makeLive capacity now key).insertionOrder ∧
      Tracks (older ++ evicted) (s.makeLive capacity now key) := by
  have hnotLive : key ∉ s.insertionOrder := fun hmem => hkey ((h.mem_buckets key).mpr hmem)
  have hadmitted : Recent.Admitted maxTrackedKeys (older ++ s.insertionOrder ++ [key]) :=
    h.admitted.snoc fun hmem => hkey (h.mem_buckets_iff.mpr hmem)
  rcases h.length_le.lt_or_eq with hroom | hfull
  · have hnil := h.eq_nil_of_room hroom
    have hghost : ∀ k, k ∉ s.ghost := by
      intro k
      rw [h.mem_ghost, h.ghostOrder_eq, hnil]
      simp
    refine ⟨[], ?_, ?_⟩
    · simp [RateLimiter.makeLive, hkey, h.evictOldest_of_room hroom]
    · simp only [RateLimiter.makeLive, hkey, if_false, h.evictOldest_of_room hroom, List.append_nil]
      refine ⟨?_, ?_, fun hne => absurd hnil hne, ?_, h.ghostOrder_eq, ?_⟩
      · rwa [← List.append_assoc]
      · rw [List.length_append]
        exact hroom
      · intro k
        rw [AList.mem_insert, h.mem_buckets, List.mem_append, List.mem_singleton, or_comm]
      · intro k
        rw [AList.mem_erase, h.ghostOrder_eq, hnil]
        simp [hghost k]
  · obtain ⟨oldest, rest, bucket, horder, hevict⟩ := h.evictOldest_of_full hfull
    have hnodup := h.nodup_insertionOrder
    rw [horder, List.nodup_cons] at hnodup
    rw [horder] at hnotLive hfull
    refine ⟨[oldest], ?_, ?_⟩
    · simp [RateLimiter.makeLive, hkey, hevict, horder]
    · simp only [RateLimiter.makeLive, hkey, if_false, hevict, trimGhosts_snd]
      refine ⟨?_, ?_, fun _ => ?_, ?_, ?_, ?_⟩
      · simpa [horder] using hadmitted
      · rw [List.length_append]
        exact hfull.le
      · rw [List.length_append]
        exact hfull
      · intro k
        rw [AList.mem_insert, AList.mem_erase, h.mem_buckets, horder, List.mem_append,
          List.mem_singleton, List.mem_cons]
        constructor
        · grind
        · rintro (hk | hk)
          · exact .inr ⟨fun heq => hnodup.1 (heq ▸ hk), .inr hk⟩
          · exact .inl hk
      · have hsucc : maxTrackedKeys = maxTrackedKeys - 1 + 1 :=
          (Nat.sub_add_cancel maxTrackedKeys_pos).symm
        rw [h.ghostOrder_eq, Recent.rtake_rtake (Nat.sub_le _ _)]
        conv_rhs => rw [hsucc, List.rtake_concat_succ]
      · intro k
        have hghosts := Recent.mem_rtake_iff_of_nodup h.nodup_ghostOrder k (maxTrackedKeys - 1)
        rw [AList.mem_erase, AList.mem_insert, mem_trimGhosts, h.mem_ghost, horder, List.mem_append,
          List.mem_append, List.mem_singleton, List.mem_singleton, hghosts, List.mem_cons]
        constructor
        · rintro ⟨hk, rfl | hghost⟩
          · exact ⟨.inr rfl, by grind⟩
          · grind
        · grind

theorem check (capacity rate now : Nat) (key : String) :
    ∃ evicted, s.insertionOrder ++ (if key ∈ s.buckets then [] else [key]) =
        evicted ++ (s.check capacity rate now key).2.insertionOrder ∧
      Tracks (older ++ evicted) (s.check capacity rate now key).2 := by
  obtain ⟨b, hb, hcheck⟩ :=
    check_eq capacity rate now key s
  have hlive : ∃ evicted, s.insertionOrder ++ (if key ∈ s.buckets then [] else [key]) =
        evicted ++ (s.makeLive capacity now key).insertionOrder ∧
      Tracks (older ++ evicted) (s.makeLive capacity now key) := by
    by_cases hkey : key ∈ s.buckets
    · exact ⟨[], by simp [RateLimiter.makeLive, hkey], by simpa [RateLimiter.makeLive,
        hkey] using h⟩
    · simpa [hkey] using h.makeLive hkey capacity now
  obtain ⟨evicted, hhistory, htracks⟩ := hlive
  rw [hcheck]
  refine ⟨evicted, hhistory, { htracks with mem_buckets := fun k => ?_ }⟩
  rw [AList.mem_insert, or_iff_right_of_imp, htracks.mem_buckets]
  rintro rfl
  exact mem_makeLive _ _ _ _

theorem wellFormed : s.WellFormed := by
  have hghostOrder : s.ghostOrder.length ≤ maxTrackedKeys := by
    rw [h.ghostOrder_eq, Recent.length_rtake]
    exact Nat.min_le_left _ _
  have hghost : s.ghost.keys ⊆ s.ghostOrder := fun k hk =>
    ((h.mem_ghost k).mp (AList.mem_keys.mpr hk)).1
  have hlength : s.ghost.entries.length = s.ghost.keys.length := by simp [AList.keys, List.keys]
  refine ⟨h.nodup_insertionOrder, fun k => (h.mem_buckets k).symm, h.nodup_ghostOrder,
    fun k hk => ((h.mem_ghost k).mp hk).1, fun k hk => ?_, h.length_entries ▸ h.length_le,
    h.length_le, ?_, hghostOrder⟩
  · exact ((h.mem_ghost k).mp hk.2).2 ((h.mem_buckets k).mp hk.1)
  · rw [hlength]
    exact (List.subperm_of_subset s.ghost.keys_nodup hghost).length_le.trans hghostOrder

theorem check_evicted (capacity rate now : Nat) (key : String) :
    let evicted := s.insertionOrder.filter (· ∉ (s.check capacity rate now key).2.buckets)
    s.insertionOrder ++ (if key ∈ s.buckets then [] else [key]) =
        evicted ++ (s.check capacity rate now key).2.insertionOrder ∧
      Tracks (older ++ evicted) (s.check capacity rate now key).2 := by
  obtain ⟨evicted, hhistory, htracks⟩ := h.check capacity rate now key
  have hnodup : (s.insertionOrder ++ if key ∈ s.buckets then [] else [key]).Nodup := by
    split
    · simpa using h.nodup_insertionOrder
    · rename_i hkey
      rw [← List.concat_eq_append, List.nodup_concat]
      exact ⟨mt (h.mem_buckets key).mpr hkey, h.nodup_insertionOrder⟩
  suffices heq : s.insertionOrder.filter (· ∉ (s.check capacity rate now key).2.buckets) =
      evicted by
    rw [heq]
    exact ⟨hhistory, htracks⟩
  have hfilter := congrArg
    (List.filter (· ∉ (s.check capacity rate now key).2.buckets)) hhistory
  rw [hhistory, List.nodup_append] at hnodup
  have hnew : (if key ∈ s.buckets then [] else [key]).filter
      (· ∉ (s.check capacity rate now key).2.buckets) = [] := by
    have hlive : key ∈ (s.check capacity rate now key).2.buckets :=
      mem_check.mpr (mem_makeLive capacity now key s)
    split <;> simp [hlive]
  have hgone : evicted.filter (· ∉ (s.check capacity rate now key).2.buckets) = evicted :=
    List.filter_eq_self.mpr fun k hk => decide_eq_true fun hlive =>
      hnodup.2.2 k hk k ((htracks.mem_buckets k).mp hlive) rfl
  have hkept : (s.check capacity rate now key).2.insertionOrder.filter
      (· ∉ (s.check capacity rate now key).2.buckets) = [] :=
    List.filter_eq_nil_iff.mpr fun k hk => by simpa using (htracks.mem_buckets k).mpr hk
  rwa [List.filter_append, List.filter_append, hnew, hgone, hkept, List.append_nil,
    List.append_nil] at hfilter

end Tracks

end RateLimiter

/-! ### Runs -/

structure LimiterCall where
  key : String
  now : Nat

abbrev LimiterStep := Run.Step LimiterCall RateLimiter Bool

def limiterSteps (capacity rate : Nat) (calls : List LimiterCall) : List LimiterStep :=
  Run.steps (fun call s => s.check capacity rate call.now call.key) {} calls

def insertedKey (step : LimiterStep) : Option String :=
  if step.input.key ∈ step.before.buckets then none else some step.input.key

def inserted (steps : List LimiterStep) : List String := steps.filterMap insertedKey

def evictedKeys (step : LimiterStep) : List String :=
  step.before.insertionOrder.filter (· ∉ step.after.buckets)

def evictions (steps : List LimiterStep) : List String := steps.flatMap evictedKeys

section

variable {capacity rate : Nat} {calls : List LimiterCall} {before mid after : List LimiterStep}
  {step insertion reset eviction check : LimiterStep} {key : String}

theorem insertedKey_eq_some {k : String} :
    insertedKey step = some k ↔ step.input.key = k ∧ k ∉ step.before.buckets := by
  unfold insertedKey
  split
  · rename_i hlive
    refine iff_of_false (by simp) ?_
    rintro ⟨rfl, hnot⟩
    exact hnot hlive
  · rename_i hnot
    rw [Option.some.injEq]
    refine ⟨?_, And.left⟩
    rintro rfl
    exact ⟨rfl, hnot⟩

theorem inserted_append : inserted (before ++ after) = inserted before ++ inserted after :=
  List.filterMap_append

theorem evictions_append : evictions (before ++ after) = evictions before ++ evictions after :=
  List.flatMap_append

section

variable (h : limiterSteps capacity rate calls = before ++ step :: after)

include h

theorem tracks_of_limiterSteps :
    (RateLimiter.Tracks (evictions before) step.before ∧
      evictions before ++ step.before.insertionOrder = inserted before) ∧
    RateLimiter.Tracks (evictions (before ++ [step])) step.after ∧
      evictions (before ++ [step]) ++ step.after.insertionOrder = inserted (before ++ [step]) := by
  refine Run.invariant_history (H := fun before s => RateLimiter.Tracks (evictions before) s ∧
    evictions before ++ s.insertionOrder = inserted before) ⟨.empty, rfl⟩ ?_ h
  rintro before step hstep ⟨htracks, hhistory⟩
  have hafter := congrArg Prod.snd (Run.mem_steps hstep).2
  dsimp only at hafter
  obtain ⟨hnext, htracks'⟩ := htracks.check_evicted capacity rate step.input.now step.input.key
  rw [hafter] at hnext htracks'
  have hevictions : evictions (before ++ [step]) = evictions before ++ evictedKeys step := by
    simp [evictions]
  refine ⟨hevictions ▸ htracks', ?_⟩
  rw [hevictions, List.append_assoc, evictedKeys, ← hnext, ← List.append_assoc, hhistory,
    inserted_append]
  congr 1
  simp only [inserted, List.filterMap_cons, List.filterMap_nil, insertedKey]
  split <;> rfl

theorem check_of_limiterSteps :
    step.before.check capacity rate step.input.now step.input.key = (step.output, step.after) :=
  (Run.mem_steps (h ▸ List.mem_append_cons_self)).2

theorem length_evictedKeys (hevicted : evictions (before ++ [step]) ≠ []) :
    (evictedKeys step).length + maxTrackedKeys =
      step.before.insertionOrder.length + (inserted [step]).length := by
  obtain ⟨⟨-, hhistory⟩, htracks, hhistory'⟩ := tracks_of_limiterSteps h
  have hfull := htracks.full hevicted
  have hlength := congrArg List.length hhistory'
  have hlength' := congrArg List.length hhistory
  simp only [inserted_append, evictions_append, List.length_append] at hlength hlength'
  simp only [evictions, List.flatMap_cons, List.flatMap_nil, List.append_nil] at hlength hlength'
  omega

theorem live_iff_of_limiterSteps :
    key ∈ step.before.buckets ↔ key ∈ (inserted before).rtake maxTrackedKeys := by
  obtain ⟨⟨htracks, hhistory⟩, -⟩ := tracks_of_limiterSteps h
  rw [htracks.mem_buckets_iff, hhistory]

theorem ghost_iff_of_limiterSteps (hkey : key ∉ step.before.buckets) :
    key ∈ step.before.evictOldest.ghost ↔
      key ∈ (inserted before).rtake (2 * maxTrackedKeys - 1) := by
  obtain ⟨⟨htracks, hhistory⟩, -⟩ := tracks_of_limiterSteps h
  rw [htracks.mem_ghost_evictOldest_iff hkey, hhistory]

end

theorem live_until (hrun : limiterSteps capacity rate calls =
      before ++ step :: mid ++ check :: after) (hlive : key ∈ step.after.buckets)
    (hkept : key ∉ evictions mid) : key ∈ check.before.buckets := by
  rw [List.append_assoc, List.cons_append] at hrun
  obtain ⟨rest, hrest⟩ := Run.exists_steps_after hrun
  refine Run.invariant_until (I := fun s => key ∈ s.buckets) hlive hrest.symm fun later hlater h => ?_
  obtain ⟨first, last, rfl⟩ := List.append_of_mem hlater
  have hsplit : limiterSteps capacity rate calls =
      (before ++ step :: first) ++ later :: (last ++ check :: after) := by simp [hrun]
  have horder := ((tracks_of_limiterSteps hsplit).1.1.mem_buckets key).mp h
  by_contra hgone
  refine hkept (List.mem_flatMap.mpr ⟨later, hlater, List.mem_filter.mpr ⟨horder, ?_⟩⟩)
  exact decide_eq_true hgone

theorem lookup_ghost_of_evictedKeys (hrun : limiterSteps capacity rate calls =
      before ++ eviction :: mid ++ check :: after) (hkey : key ∈ evictedKeys eviction)
    (hlast : key ∉ evictions mid) (hdead : key ∉ check.before.buckets)
    (hghost : key ∈ check.before.ghost) :
    check.before.ghost.lookup key = eviction.before.buckets.lookup key := by
  have hdead : ∀ step ∈ mid, key ∉ step.after.buckets := by
    intro step hstep hlive
    obtain ⟨first, rest, rfl⟩ := List.append_of_mem hstep
    have hsplit : limiterSteps capacity rate calls =
        (before ++ eviction :: first) ++ step :: rest ++ check :: after := by simpa using hrun
    refine hdead (live_until hsplit hlive ?_)
    rw [evictions_append, evictions, evictions, List.flatMap_cons] at hlast
    exact fun h => hlast (List.mem_append_right _ (List.mem_append_right _ h))
  rw [List.append_assoc, List.cons_append] at hrun
  obtain ⟨hlive, hgone⟩ := List.mem_filter.mp hkey
  have hgone := of_decide_eq_true hgone
  obtain ⟨rest, hrest⟩ := Run.exists_steps_after hrun
  refine (Run.invariant_until (I := fun s => key ∉ s.buckets ∧
    (key ∈ s.ghost → s.ghost.lookup key = eviction.before.buckets.lookup key))
    ⟨hgone, fun _ => ?_⟩ hrest.symm fun later hlater h => ⟨hdead later hlater, fun hmem => ?_⟩).2
    hghost
  · have hcheck := congrArg Prod.snd (check_of_limiterSteps hrun)
    dsimp only at hcheck
    rw [← hcheck] at hgone ⊢
    exact RateLimiter.lookup_ghost_of_evicted
      (((tracks_of_limiterSteps hrun).1.1.mem_buckets key).mpr hlive) hgone
  · have hcheck := congrArg Prod.snd (Run.mem_steps
      (hrest ▸ List.mem_append_left (check :: after) hlater)).2
    dsimp only at hcheck
    have hne : key ≠ later.input.key := by
      rintro rfl
      refine hdead later hlater ?_
      rw [← hcheck, RateLimiter.mem_check]
      exact RateLimiter.mem_makeLive _ _ _ _
    rw [← hcheck] at hmem ⊢
    rw [RateLimiter.lookup_ghost_check hne h.1 hmem]
    exact h.2 ((RateLimiter.mem_of_mem_ghost_check hmem).resolve_left h.1)

theorem ghost_iff_of_evictedKeys (hrun : limiterSteps capacity rate calls =
      before ++ eviction :: mid ++ check :: after) (hkey : key ∈ evictedKeys eviction)
    (hlast : key ∉ evictions mid) (hcheck : check.input.key = key)
    (hdead : key ∉ check.before.buckets) :
    key ∈ check.before.evictOldest.ghost ↔
      (evictions (mid ++ [check])).length < maxTrackedKeys := by
  have hfirst : limiterSteps capacity rate calls =
      before ++ eviction :: (mid ++ check :: after) := by simp [hrun]
  obtain ⟨⟨htracks, hhistory⟩, -⟩ := tracks_of_limiterSteps hrun
  have hnotLive := mt (htracks.mem_buckets key).mpr hdead
  have hevicted : ∀ {steps}, eviction ∈ steps → evictions steps ≠ [] := fun hmem hnil =>
    List.ne_nil_of_mem (List.mem_flatMap.mpr ⟨eviction, hmem, hkey⟩) hnil
  -- The eviction takes one key, and so does the check.
  have hone : evictedKeys eviction = [key] := by
    have hlength := length_evictedKeys hfirst (hevicted (by simp))
    have hinserted := List.length_filterMap_le insertedKey [eviction]
    have hroom := (tracks_of_limiterSteps hfirst).1.1.length_le
    have hpos := List.length_pos_of_mem hkey
    rw [List.length_singleton] at hinserted
    obtain ⟨only, honly⟩ := List.length_eq_one_iff.mp
      (show (evictedKeys eviction).length = 1 by rw [inserted] at hlength; omega)
    rw [honly, List.mem_singleton] at hkey
    rw [honly, hkey]
  have hnext : (evictedKeys check).length = 1 := by
    have hlength := length_evictedKeys hrun (hevicted (by simp))
    have hfull := htracks.full (hevicted (by simp))
    have hinserted : inserted [check] = [key] := by
      simp [inserted, insertedKey_eq_some.mpr ⟨hcheck, hdead⟩]
    rw [hinserted, List.length_singleton] at hlength
    omega
  have hfull := htracks.full (hevicted (by simp))
  have hsplit : inserted (before ++ eviction :: mid) =
      evictions before ++ key :: (evictions mid ++ check.before.insertionOrder) := by
    rw [← hhistory, evictions_append]
    simp [evictions, hone]
  have hnotMem : key ∉ evictions mid ++ check.before.insertionOrder := by
    simp [hlast, hnotLive]
  rw [ghost_iff_of_limiterSteps hrun hdead, hsplit, Recent.mem_rtake_iff_length_lt hnotMem,
    evictions_append]
  simp only [List.length_append, hfull]
  simp only [evictions, List.flatMap_cons, List.flatMap_nil, List.append_nil, hnext]
  have := RateLimiter.maxTrackedKeys_pos
  omega

/-- Resetting a key takes `2 * MAX_TRACKED_KEYS - 1` other keys, if no ghost comes back once the key
has left the live table. -/
theorem distinct_keys_of_resets
    (hrun : limiterSteps capacity rate calls = before ++ insertion :: mid ++ reset :: after)
    (hinsertion : insertedKey insertion = some key)
    (hlast : ∀ step ∈ mid, insertedKey step ≠ some key)
    (hreset : reset.input.key = key) (hresets : RateLimiter.Resets key reset.before)
    (hrestores : ∀ step ∈ mid, RateLimiter.Restores step.input.key step.before →
      key ∈ step.before.buckets) :
    2 * maxTrackedKeys - 1 ≤ ((mid.map (·.input.key)).toFinset.erase key).card := by
  have hhistory : ∀ steps, inserted (before ++ insertion :: steps) =
      inserted before ++ key :: inserted steps := by
    intro steps
    simp [inserted, hinsertion]
  have hnotMem : key ∉ inserted mid := by
    rw [inserted, List.mem_filterMap]
    rintro ⟨step, hstep, hkey⟩
    exact hlast step hstep hkey
  -- the reset is out of reach of both tables
  have hlong : 2 * maxTrackedKeys - 1 ≤ (inserted mid).length := by
    have hghost := mt (ghost_iff_of_limiterSteps hrun hresets.1).mpr hresets.2
    rw [hhistory, Recent.mem_rtake_iff_length_lt hnotMem] at hghost
    omega
  have hnodup : ((inserted mid).take (2 * maxTrackedKeys - 1)).Nodup := by
    obtain ⟨⟨htracks, holder⟩, -⟩ := tracks_of_limiterSteps hrun
    have hadmitted := htracks.admitted
    rw [holder, hhistory] at hadmitted
    refine hadmitted.nodup_take hnotMem fun first x rest hsplit => ?_
    obtain ⟨firstSteps, restSteps, rfl, rfl, hrest⟩ := List.filterMap_eq_append_iff.mp hsplit
    obtain ⟨hits, step, later, rfl, hhits, hstep, -⟩ := List.filterMap_eq_cons_iff.mp hrest
    have hbefore : inserted (firstSteps ++ hits) = inserted firstSteps := by
      rw [inserted_append, inserted, inserted, List.filterMap_eq_nil_iff.mpr hhits, List.append_nil]
    have hsteps : limiterSteps capacity rate calls =
        before ++ insertion :: (firstSteps ++ hits) ++ step :: (later ++ reset :: after) := by
      rw [hrun]
      simp
    obtain ⟨rfl, hnotLive⟩ := insertedKey_eq_some.mp hstep
    change _ ∉ (inserted before ++ key :: inserted firstSteps).rtake _ ∨
      _ ∈ (inserted before ++ key :: inserted firstSteps).rtake _
    rw [← hbefore, ← hhistory, ← ghost_iff_of_limiterSteps hsteps hnotLive,
      ← live_iff_of_limiterSteps hsteps, ← imp_iff_not_or]
    exact fun hghost => hrestores step (by simp) ⟨hnotLive, hghost⟩
  calc 2 * maxTrackedKeys - 1 = ((inserted mid).take (2 * maxTrackedKeys - 1)).length := by
        rw [List.length_take, Nat.min_eq_left hlong]
    _ = ((inserted mid).take (2 * maxTrackedKeys - 1)).toFinset.card :=
        (List.toFinset_card_of_nodup hnodup).symm
    _ ≤ ((mid.map (·.input.key)).toFinset.erase key).card := by
        refine Finset.card_le_card fun x hx => ?_
        have hmem := List.mem_of_mem_take (List.mem_toFinset.mp hx)
        rw [inserted, List.mem_filterMap] at hmem
        obtain ⟨step, hstep, hkey⟩ := hmem
        rw [Finset.mem_erase, List.mem_toFinset, List.mem_map]
        refine ⟨?_, step, hstep, (insertedKey_eq_some.mp hkey).1⟩
        rintro rfl
        exact hlast step hstep hkey

theorem inserted_of_admitted (hkeys : Recent.Admitted maxTrackedKeys (calls.map LimiterCall.key))
    (h : limiterSteps capacity rate calls = before ++ after) :
    inserted before = before.map (·.input.key) := by
  induction before using List.reverseRecOn generalizing after with
  | nil => rfl
  | append_singleton before step ih =>
    have hsplit : limiterSteps capacity rate calls = before ++ step :: after := by simpa using h
    have hinserted := ih hsplit
    have hnotLive : step.input.key ∉ step.before.buckets := by
      rw [live_iff_of_limiterSteps hsplit, hinserted]
      suffices h : Recent.Admitted maxTrackedKeys
          (before.map (·.input.key) ++ step.input.key :: after.map (·.input.key)) from h.not_recent
      rw [← List.map_cons (f := fun step : LimiterStep => step.input.key), ← List.map_append,
        ← hsplit, ← Function.comp_def LimiterCall.key, ← List.map_map, limiterSteps, Run.map_input]
      exact hkeys
    have hkey : insertedKey step = some step.input.key := insertedKey_eq_some.mpr ⟨rfl, hnotLive⟩
    rw [inserted_append, hinserted, List.map_append]
    simp [inserted, hkey]

theorem insertedKey_of_admitted (hkeys : Recent.Admitted maxTrackedKeys (calls.map LimiterCall.key))
    (h : limiterSteps capacity rate calls = before ++ step :: after) :
    insertedKey step = some step.input.key := by
  have hsplit : limiterSteps capacity rate calls = before ++ [step] ++ after := by simpa using h
  have hinserted := inserted_of_admitted hkeys hsplit
  rw [inserted_append, inserted_of_admitted hkeys h, List.map_append,
    List.append_cancel_left_eq] at hinserted
  refine insertedKey_eq_some.mpr ⟨rfl, fun hlive => ?_⟩
  simp [inserted, insertedKey, hlive] at hinserted

theorem exists_reset_of_admitted (capacity rate : Nat) {first again : LimiterCall}
    {others : List LimiterCall}
    (hkeys : Recent.Admitted maxTrackedKeys ((first :: others ++ [again]).map LimiterCall.key))
    (hsame : again.key = first.key) (hothers : first.key ∉ others.map LimiterCall.key)
    (hlength : 2 * maxTrackedKeys - 1 ≤ others.length) :
    ∃ insertion mid reset,
      limiterSteps capacity rate (first :: others ++ [again]) = [] ++ insertion :: mid ++ [reset] ∧
      (insertion :: mid).map (·.input.key) = (first :: others).map LimiterCall.key ∧
      insertedKey insertion = some first.key ∧
      reset.input.key = first.key ∧ RateLimiter.Resets first.key reset.before := by
  have hinputs : (limiterSteps capacity rate (first :: others ++ [again])).map Run.Step.input =
      first :: others ++ [again] := Run.map_input
  obtain ⟨front, last, hsteps, hfront, hlast⟩ := List.map_eq_append_iff.mp hinputs
  obtain ⟨insertion, mid, rfl, hinsertion, hmid⟩ := List.map_eq_cons_iff.mp hfront
  obtain ⟨reset, rfl, hreset⟩ := List.map_eq_singleton_iff.mp hlast
  have hfirstSteps : limiterSteps capacity rate (first :: others ++ [again]) =
      [] ++ insertion :: (mid ++ [reset]) := by
    simpa using hsteps
  have hfirst := insertedKey_of_admitted hkeys hfirstSteps
  have hfrontKeys : (insertion :: mid).map (·.input.key) =
      (first :: others).map LimiterCall.key := by
    rw [← hfront, List.map_map]
    rfl
  have hresetKey : reset.input.key = first.key := by rw [hreset, hsame]
  have hnotLive := (insertedKey_eq_some.mp (insertedKey_of_admitted hkeys hsteps)).2
  refine ⟨insertion, mid, reset, hsteps, hfrontKeys, by rw [hfirst, hinsertion], hresetKey,
    hresetKey ▸ hnotLive, fun hghost => ?_⟩
  rw [ghost_iff_of_limiterSteps hsteps (hresetKey ▸ hnotLive), inserted_of_admitted hkeys hsteps,
    hfrontKeys, List.map_cons, ← List.nil_append (first.key :: _),
    Recent.mem_rtake_iff_length_lt hothers, List.length_map] at hghost
  omega

/-- **The structure of the limiter**: in every state a run reaches, the queues list the keys of
their tables without repetition, no key is in both tables, and nothing is larger than the bound. A
check of an evicted key takes its old bucket back exactly if fewer than the bound were evicted
since, its own eviction counted, and starts a full one otherwise. -/
theorem limiter_tables_and_restored_buckets (capacity rate : Nat) (calls : List LimiterCall) :
    (∀ step ∈ limiterSteps capacity rate calls, ∀ s ∈ [step.before, step.after],
      s.WellFormed) ∧
    ∀ before eviction mid check after key,
      limiterSteps capacity rate calls = before ++ eviction :: mid ++ check :: after →
      key ∈ evictedKeys eviction → key ∉ evictions mid →
      check.input.key = key → key ∉ check.before.buckets →
      ∃ old, eviction.before.buckets.lookup key = some old ∧
        let bucket := if (evictions (mid ++ [check])).length < maxTrackedKeys then old
          else { tokens := capacity, lastRefill := check.input.now }
        check.output = decide (1 ≤ RateLimiter.refill capacity rate check.input.now bucket) ∧
        check.after.buckets.lookup key =
          some (RateLimiter.spend capacity rate check.input.now bucket) := by
  refine ⟨fun step hstep => ?_, fun before eviction mid check after key hrun hkey hlast hcheck
    hdead => ?_⟩
  · obtain ⟨before, after, hsplit⟩ := List.append_of_mem hstep
    obtain ⟨⟨hbefore, -⟩, hafter, -⟩ := tracks_of_limiterSteps hsplit
    simpa using ⟨hbefore.wellFormed, hafter.wellFormed⟩
  · have hfirst : limiterSteps capacity rate calls =
        before ++ eviction :: (mid ++ check :: after) := by simp [hrun]
    have hlive := ((tracks_of_limiterSteps hfirst).1.1.mem_buckets key).mpr
      (List.mem_filter.mp hkey).1
    obtain ⟨old, hold⟩ := Option.isSome_iff_exists.mp (AList.lookup_isSome.mpr hlive)
    refine ⟨old, hold, ?_⟩
    have hbucket : (check.before.evictOldest.ghost.lookup key).getD
        { tokens := capacity, lastRefill := check.input.now } =
          if (evictions (mid ++ [check])).length < maxTrackedKeys then old
          else { tokens := capacity, lastRefill := check.input.now } := by
      rw [← if_congr (ghost_iff_of_evictedKeys hrun hkey hlast hcheck hdead) rfl rfl]
      split
      · rename_i hghost
        rw [RateLimiter.lookup_ghost_evictOldest hdead hghost, lookup_ghost_of_evictedKeys hrun hkey
          hlast hdead ((RateLimiter.mem_of_mem_ghost_evictOldest hghost).resolve_left hdead), hold]
        rfl
      · rename_i hghost
        rw [AList.lookup_eq_none.mpr hghost]
        rfl
    have hstep := check_of_limiterSteps hrun
    rw [hcheck] at hstep
    have hfound := RateLimiter.check_of_not_live capacity rate check.input.now hdead
    rwa [hstep, hbucket] at hfound

end

/-! ### Cycling through few keys -/

def slotName (n : ℕ) : String := String.ofList (List.replicate n 'x')

theorem slotName_injective : Function.Injective slotName := by
  intro m n h
  have hlength := congrArg List.length (String.ofList_injective h)
  simpa using hlength

def slotCall (n : ℕ) : LimiterCall := ⟨slotName n, 0⟩

/-- The calls between two calls on the key of `0`. -/
def slotCalls (slot : ℕ → ℕ) : List LimiterCall :=
  (List.range (2 * maxTrackedKeys - 1)).map fun i => slotCall (slot i + 1)

theorem admitted_slotCalls {slot : ℕ → ℕ}
    (hslot : ∀ i j, i < j → slot i = slot j → maxTrackedKeys < j - i) :
    Recent.Admitted maxTrackedKeys
      ((slotCall 0 :: slotCalls slot ++ [slotCall 0]).map LimiterCall.key) := by
  have hsucc : 2 * maxTrackedKeys = 2 * maxTrackedKeys - 1 + 1 := by decide
  have hkeys : (slotCall 0 :: slotCalls slot ++ [slotCall 0]).map LimiterCall.key =
      (List.range (2 * maxTrackedKeys + 1)).map fun i =>
        slotName (if i = 0 ∨ i = 2 * maxTrackedKeys then 0 else slot (i - 1) + 1) := by
    rw [List.range_succ, hsucc, List.range_succ_eq_map, ← hsucc]
    simp only [slotCalls, slotCall, List.map_append, List.map_cons, List.map_map, List.map_nil]
    refine congrArg₂ _ (congrArg₂ _ rfl (List.map_congr_left fun i hi => ?_)) rfl
    have hne : i + 1 ≠ 2 * maxTrackedKeys := by
      have := List.mem_range.mp hi
      omega
    simp [hne]
  rw [hkeys]
  refine Recent.Admitted.of_range fun i j hij hj heq => ?_
  have heq := slotName_injective heq
  have hpos := RateLimiter.maxTrackedKeys_pos
  split at heq <;> split at heq
  · omega
  · omega
  · omega
  · have := hslot (i - 1) (j - 1) (by omega) (by omega)
    omega

theorem exists_reset_of_slots (slot : ℕ → ℕ)
    (hslot : ∀ i j, i < j → slot i = slot j → maxTrackedKeys < j - i) :
    ∃ insertion mid reset,
      limiterSteps 1 1 (slotCall 0 :: slotCalls slot ++ [slotCall 0]) =
        [] ++ insertion :: mid ++ [reset] ∧
      (insertion :: mid).map (·.input.key) =
        slotName 0 :: (List.range (2 * maxTrackedKeys - 1)).map (fun i => slotName (slot i + 1)) ∧
      insertedKey insertion = some (slotName 0) ∧
      reset.input.key = slotName 0 ∧ RateLimiter.Resets (slotName 0) reset.before := by
  have hothers : (slotCall 0).key ∉ (slotCalls slot).map LimiterCall.key := by
    rw [slotCalls, List.map_map, List.mem_map]
    rintro ⟨i, -, heq⟩
    exact absurd (slotName_injective heq) (Nat.succ_ne_zero _)
  obtain ⟨insertion, mid, reset, hsteps, hkeys, hinsertion, hreset, hresets⟩ :=
    exists_reset_of_admitted 1 1 (admitted_slotCalls hslot) rfl hothers
      (by simp [slotCalls])
  refine ⟨insertion, mid, reset, hsteps, ?_, hinsertion, hreset, hresets⟩
  rw [hkeys, slotCalls, List.map_cons, List.map_map]
  rfl

/-- Cycling through one key more than the live table holds resets a key, since each of them comes
back from the ghosts and still pushes another key on. -/
theorem reset_by_cycling : ∃ insertion mid reset,
    limiterSteps 1 1
        (slotCall 0 :: slotCalls (· % (maxTrackedKeys + 1)) ++ [slotCall 0]) =
      [] ++ insertion :: mid ++ [reset] ∧
    insertedKey insertion = some (slotName 0) ∧ (∀ step ∈ mid, step.input.key ≠ slotName 0) ∧
    reset.input.key = slotName 0 ∧ RateLimiter.Resets (slotName 0) reset.before ∧
    ((mid.map (·.input.key)).toFinset.erase (slotName 0)).card < 2 * maxTrackedKeys - 1 := by
  obtain ⟨insertion, mid, reset, hsteps, hkeys, hinsertion, hreset, hresets⟩ :=
    exists_reset_of_slots (· % (maxTrackedKeys + 1)) (fun i j hij heq => by
      dsimp only [maxTrackedKeys] at *
      omega)
  have hmid := (List.cons.inj hkeys).2
  refine ⟨insertion, mid, reset, hsteps, hinsertion, fun step hstep hkey => ?_, hreset, hresets, ?_⟩
  · have hmem := List.mem_map_of_mem (f := fun step : LimiterStep => step.input.key) hstep
    rw [hmid, List.mem_map] at hmem
    obtain ⟨i, -, heq⟩ := hmem
    exact absurd (slotName_injective (heq.trans hkey)) (Nat.succ_ne_zero _)
  · have hsubset : (mid.map (·.input.key)).toFinset.erase (slotName 0) ⊆
        (Finset.range (maxTrackedKeys + 1)).image fun i => slotName (i + 1) := by
      intro x hx
      have hmem := List.mem_toFinset.mp (Finset.mem_of_mem_erase hx)
      rw [hmid, List.mem_map] at hmem
      obtain ⟨i, -, rfl⟩ := hmem
      exact Finset.mem_image.mpr ⟨_, Finset.mem_range.mpr (Nat.mod_lt _ (Nat.succ_pos _)), rfl⟩
    calc _ ≤ ((Finset.range (maxTrackedKeys + 1)).image fun i => slotName (i + 1)).card :=
          Finset.card_le_card hsubset
      _ ≤ (Finset.range (maxTrackedKeys + 1)).card := Finset.card_image_le
      _ < 2 * maxTrackedKeys - 1 := by
          rw [Finset.card_range]
          decide

theorem ne_of_new_keys (i j : ℕ) (hij : i < j) (heq : id i = id j) : maxTrackedKeys < j - i :=
  absurd heq hij.ne

theorem nodup_new_keys : (slotName 0 ::
    (List.range (2 * maxTrackedKeys - 1)).map (fun i => slotName (id i + 1))).Nodup := by
  refine List.nodup_cons.mpr ⟨?_, List.nodup_range.map fun i j heq => ?_⟩
  · rw [List.mem_map]
    rintro ⟨i, -, heq⟩
    exact absurd (slotName_injective heq) (Nat.succ_ne_zero _)
  · exact Nat.succ_injective (slotName_injective heq)

/-- A run of new keys only. -/
theorem reset_by_new_keys : ∃ insertion mid reset,
    limiterSteps 1 1 (slotCall 0 :: slotCalls id ++ [slotCall 0]) =
      [] ++ insertion :: mid ++ [reset] ∧
    RateLimiter.Resets (slotName 0) reset.before ∧
    2 * maxTrackedKeys - 1 ≤ ((mid.map (·.input.key)).toFinset.erase (slotName 0)).card := by
  obtain ⟨insertion, mid, reset, hsteps, hkeys, hinsertion, hreset, hresets⟩ :=
    exists_reset_of_slots _ ne_of_new_keys
  have hnodup : ((insertion :: mid).map (·.input.key)).Nodup := hkeys ▸ nodup_new_keys
  refine ⟨insertion, mid, reset, hsteps, hresets,
    distinct_keys_of_resets hsteps hinsertion ?_ hreset hresets ?_⟩
  · intro step hstep hkey
    rw [List.map_cons, List.nodup_cons, (insertedKey_eq_some.mp hinsertion).1] at hnodup
    exact hnodup.1 (List.mem_map.mpr ⟨step, hstep, (insertedKey_eq_some.mp hkey).1⟩)
  · rintro step hstep ⟨hnotLive, hghost⟩
    obtain ⟨first, rest, rfl⟩ := List.append_of_mem hstep
    have hsplit : limiterSteps 1 1 (slotCall 0 :: slotCalls id ++ [slotCall 0]) =
        insertion :: first ++ step :: (rest ++ [reset]) := by
      rw [hsteps]
      simp
    rw [ghost_iff_of_limiterSteps hsplit hnotLive,
      inserted_of_admitted (admitted_slotCalls ne_of_new_keys) hsplit] at hghost
    rw [← List.cons_append, List.map_append, List.nodup_append] at hnodup
    exact absurd rfl (hnodup.2.2 _ (List.mem_of_mem_drop hghost) _ List.mem_cons_self)

/-- Among new keys the first one is evicted and forgotten, and its next request is granted from a
full bucket, though its own bucket was spent and no time has passed. -/
theorem limiter_tables_and_restored_buckets_new_keys : ∃ before eviction mid check old,
    limiterSteps 1 1 (slotCall 0 :: slotCalls id ++ [slotCall 0]) =
      before ++ eviction :: mid ++ [check] ∧
    slotName 0 ∈ evictedKeys eviction ∧ check.input.key = slotName 0 ∧
    eviction.before.buckets.lookup (slotName 0) = some old ∧ check.output = true := by
  obtain ⟨insertion, mid, reset, hsteps, hkeys, hinsertion, hreset, hresets⟩ :=
    exists_reset_of_slots _ ne_of_new_keys
  rw [List.nil_append] at hsteps
  obtain ⟨⟨htracks, hhistory⟩, -⟩ := tracks_of_limiterSteps hsteps
  rw [inserted_of_admitted (admitted_slotCalls ne_of_new_keys) hsteps, hkeys] at hhistory
  have hnodup := hhistory ▸ nodup_new_keys
  have hevicted : slotName 0 ∈ evictions (insertion :: mid) :=
    (List.mem_append.mp (hhistory ▸ List.mem_cons_self)).resolve_right
      (mt (htracks.mem_buckets _).mpr hresets.1)
  obtain ⟨eviction, hmem, hevicted⟩ := List.mem_flatMap.mp hevicted
  obtain ⟨before, rest, hsplit⟩ := List.append_of_mem hmem
  rw [hsplit] at hsteps hnodup
  have hlast : slotName 0 ∉ evictions rest := by
    rw [evictions_append, List.append_assoc, List.nodup_append] at hnodup
    exact fun hagain =>
      List.disjoint_of_nodup_append (List.nodup_append.mp hnodup.2.1).1 hevicted hagain
  obtain ⟨old, hold, hcheck, -⟩ := (limiter_tables_and_restored_buckets 1 1 _).2 before eviction rest
    reset [] (slotName 0) hsteps hevicted hlast hreset hresets.1
  refine ⟨before, eviction, rest, reset, old, hsteps, hevicted, hreset, hold, ?_⟩
  rw [if_neg (mt (ghost_iff_of_evictedKeys hsteps hevicted hlast hreset hresets.1).mpr hresets.2)]
    at hcheck
  simpa [RateLimiter.refill] using hcheck

end Signer
