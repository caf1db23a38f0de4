import Signer.CacheRuns
import Signer.Service.Recent

/-!
# The order of the data-key cache

The cache keeps its keys in the order of their last use, whatever calls come at whatever times.
-/

namespace Signer

namespace DekCache

structure Limits where
  ttl : ℕ
  max : ℕ

def maxEntriesCeiling : ℕ := 1024

def Limits.new (ttl max : ℕ) : Limits := { ttl, max := min (Nat.max 1 max) maxEntriesCeiling }

/-- `DekCache::get`, for any limits. -/
def Limits.get (l : Limits) (now : ℕ) (key : Bytes) (c : DekCache) : Option Bytes × DekCache :=
  if l.ttl = 0 then (none, c)
  else
    match c.map.lookup key with
    | none => (none, c)
    | some entry =>
      if l.ttl ≤ now - entry.inserted then
        (none, { map := c.map.erase key, order := c.order.erase key })
      else (some entry.dek, { c with order := c.order.erase key ++ [key] })

/-- `DekCache::put`, for any limits. -/
def Limits.put (l : Limits) (now : ℕ) (key dek : Bytes) (c : DekCache) : DekCache :=
  if l.ttl = 0 then c
  else
    let order := if key ∈ c.map then c.order.erase key else c.order
    evict l.max (c.map.insert key { dek, inserted := now }) (order ++ [key])

def Limits.ofEnv (env : Env) : Limits :=
  { ttl := env.dekCacheTtlSecs * 1000000000, max := env.dekCacheMax }

theorem get_eq (env : Env) (now : ℕ) (key : Bytes) (c : DekCache) :
    c.get env now key = (Limits.ofEnv env).get now key c := by
  simp only [DekCache.get, Limits.get, Limits.ofEnv, enabled, Nat.mul_eq_zero, OfNat.ofNat_ne_zero,
    or_false, Bool.not_eq_true', decide_eq_false_iff_not, not_not]
  rfl

theorem put_eq (env : Env) (now : ℕ) (key dek : Bytes) (c : DekCache) :
    c.put env now key dek = (Limits.ofEnv env).put now key dek c := by
  simp [DekCache.put, Limits.put, Limits.ofEnv, enabled]

end DekCache

inductive CacheCall where
  | get (now : ℕ) (key : Bytes)
  | put (now : ℕ) (key dek : Bytes)
  | flush
  deriving DecidableEq

def DekCache.Limits.call (l : DekCache.Limits) : CacheCall → DekCache → Option Bytes × DekCache
  | .get now key, c => l.get now key c
  | .put now key dek, c => (none, l.put now key dek c)
  | .flush, c => (none, c.flush)

abbrev CacheStep := Run.Step CacheCall DekCache (Option Bytes)

def cacheSteps (l : DekCache.Limits) (calls : List CacheCall) : List CacheStep :=
  Run.steps l.call {} calls

def usedKey (step : CacheStep) : Option Bytes :=
  match step.input with
  | .get _ key => if step.output.isSome then some key else none
  | .put _ key _ => some key
  | .flush => none

def lastUse (key : Bytes) (past : List CacheStep) : ℕ :=
  past.length - past.reverse.findIdx (usedKey · = some key)

def putUnder (key : Bytes) : CacheCall → Option (ℕ × Bytes)
  | .put now k dek => if k = key then some (now, dek) else none
  | _ => none

def lastPut (key : Bytes) (past : List CacheStep) : Option (ℕ × Bytes) :=
  past.reverse.findSome? fun step => putUnder key step.input

section

variable {l : DekCache.Limits} {c c' : DekCache} {past : List CacheStep} {step : CacheStep}
  {key other : Bytes}

theorem lastUse_le : lastUse key past ≤ past.length := Nat.sub_le _ _

theorem lastUse_concat : lastUse key (past ++ [step]) =
    if usedKey step = some key then past.length + 1 else lastUse key past := by
  simp only [lastUse, List.reverse_append, List.reverse_singleton, List.singleton_append,
    List.findIdx_cons, List.length_append, List.length_singleton]
  split <;> simp_all

theorem lastPut_concat :
    lastPut key (past ++ [step]) = (putUnder key step.input).or (lastPut key past) := by
  simp only [lastPut, List.reverse_append, List.reverse_singleton, List.singleton_append,
    List.findSome?_cons]
  cases putUnder key step.input <;> rfl

/-- The queue is in the order of last use. -/
structure Recency (l : DekCache.Limits) (past : List CacheStep) (c : DekCache) : Prop where
  mem_iff : ∀ key, key ∈ c.order ↔ key ∈ c.map
  sorted : c.order.Pairwise fun a b => lastUse a past < lastUse b past
  latest : ∀ key entry, c.map.lookup key = some entry →
    lastPut key past = some (entry.inserted, entry.dek)
  bounded : c.order.length ≤ l.max
  off : l.ttl = 0 → c.order = []

theorem nodup_of_pairwise_lastUse {order : List Bytes}
    (h : order.Pairwise fun a b => lastUse a past < lastUse b past) : order.Nodup := by
  refine h.imp fun hlt heq => ?_
  subst heq
  exact Nat.lt_irrefl _ hlt

theorem Recency.nodup (h : Recency l past c) : c.order.Nodup := nodup_of_pairwise_lastUse h.sorted

theorem Recency.drop (h : Recency l past c) (hused : usedKey step = none)
    (hput : ∀ key, putUnder key step.input = none) (hsub : c'.order.Sublist c.order)
    (hmem : ∀ key, key ∈ c'.order ↔ key ∈ c'.map)
    (hlookup : ∀ key entry, c'.map.lookup key = some entry → c.map.lookup key = some entry) :
    Recency l (past ++ [step]) c' where
  mem_iff := hmem
  sorted := by
    simp only [lastUse_concat, hused, reduceCtorEq, if_false]
    exact h.sorted.sublist hsub
  latest key entry hentry := by
    rw [lastPut_concat, hput, Option.none_or]
    exact h.latest key entry (hlookup key entry hentry)
  bounded := hsub.length_le.trans h.bounded
  off hoff := List.sublist_nil.mp (h.off hoff ▸ hsub)

theorem Recency.sorted_touch (h : Recency l past c) (hused : usedKey step = some key) :
    (c.order.erase key ++ [key]).Pairwise fun a b =>
      lastUse a (past ++ [step]) < lastUse b (past ++ [step]) := by
  have hother : ∀ a ∈ c.order.erase key, lastUse a (past ++ [step]) = lastUse a past := by
    intro a ha
    have hne : key ≠ a := fun heq => ((h.nodup.mem_erase_iff).mp ha).1 heq.symm
    simp [lastUse_concat, hused, hne]
  refine List.pairwise_append.mpr ⟨?_, List.pairwise_singleton _ _, fun a ha b hb => ?_⟩
  · refine (h.sorted.sublist List.erase_sublist).imp_of_mem fun ha hb hlt => ?_
    rwa [hother _ ha, hother _ hb]
  · rw [List.mem_singleton.mp hb, hother a ha, lastUse_concat, if_pos hused]
    exact Nat.lt_succ_of_le lastUse_le

theorem evict_spec {max : ℕ} {map : AList fun _ : Bytes => DekEntry} {order : List Bytes}
    (hnodup : order.Nodup) (hmem : ∀ key, key ∈ order ↔ key ∈ map) :
    (DekCache.evict max map order).order = order.rtake max ∧
      ∀ key, key ∈ (DekCache.evict max map order).map ↔ key ∈ order.rtake max := by
  induction order generalizing map with
  | nil => simpa [DekCache.evict] using hmem
  | cons oldest rest ih =>
    have hlength := Recent.length_entries_of_mem_iff hnodup hmem
    rw [List.nodup_cons] at hnodup
    rw [DekCache.evict, hlength]
    split
    · rename_i hlong
      have hdrop : (oldest :: rest).rtake max = rest.rtake max := by
        have hsucc : (oldest :: rest).length - max = rest.length - max + 1 := by
          simp only [List.length_cons] at hlong ⊢
          omega
        rw [List.rtake, hsucc, List.drop_succ_cons, List.rtake]
      rw [hdrop]
      refine ih hnodup.2 fun key => ?_
      rw [AList.mem_erase, ← hmem, List.mem_cons]
      refine ⟨fun hkey => ⟨fun heq => hnodup.1 (heq ▸ hkey), .inr hkey⟩, fun hkey => ?_⟩
      exact hkey.2.resolve_left hkey.1
    · rename_i hshort
      have hall : (oldest :: rest).rtake max = oldest :: rest := by
        rw [List.rtake, Nat.sub_eq_zero_of_le (Nat.le_of_not_lt hshort), List.drop_zero]
      rw [hall]
      exact ⟨rfl, fun key => (hmem key).symm⟩

theorem Recency.put_spec (h : Recency l past c) (key : Bytes) (hon : l.ttl ≠ 0) (now : ℕ)
    (dek : Bytes) :
    (l.put now key dek c).order = (c.order.erase key ++ [key]).rtake l.max ∧
      (∀ k, k ∈ (l.put now key dek c).map ↔ k ∈ (c.order.erase key ++ [key]).rtake l.max) ∧
      ∀ k entry, (l.put now key dek c).map.lookup k = some entry →
        (c.map.insert key { dek, inserted := now }).lookup k = some entry := by
  have horder : (if key ∈ c.map then c.order.erase key else c.order) = c.order.erase key := by
    split
    · rfl
    · rename_i habsent
      exact (List.erase_of_not_mem fun hkey => habsent ((h.mem_iff key).mp hkey)).symm
  have hnodup : (c.order.erase key ++ [key]).Nodup := by
    refine List.nodup_append.mpr ⟨h.nodup.erase key, List.nodup_singleton key, ?_⟩
    rintro a ha b hb rfl
    exact (h.nodup.mem_erase_iff.mp ha).1 (List.mem_singleton.mp hb)
  have hmem : ∀ k, k ∈ c.order.erase key ++ [key] ↔
      k ∈ c.map.insert key { dek, inserted := now } := by
    intro k
    rw [List.mem_append, h.nodup.mem_erase_iff, List.mem_singleton, AList.mem_insert, h.mem_iff]
    tauto
  simp only [DekCache.Limits.put, if_neg hon, horder]
  exact ⟨(evict_spec hnodup hmem).1, (evict_spec hnodup hmem).2, fun _ _ => DekCache.lookup_of_evict⟩

theorem Recency.put {now : ℕ} {dek : Bytes} (h : Recency l past c)
    (hinput : step.input = .put now key dek) :
    Recency l (past ++ [step]) (l.put now key dek c) := by
  have hused : usedKey step = some key := by simp [usedKey, hinput]
  have hlast : ∀ k, k ≠ key → lastPut k (past ++ [step]) = lastPut k past := by
    intro k hne
    simp [lastPut_concat, hinput, putUnder, hne.symm]
  by_cases hoff : l.ttl = 0
  · have hempty : c.order = [] := h.off hoff
    have hput : l.put now key dek c = c := by simp [DekCache.Limits.put, hoff]
    rw [hput]
    refine ⟨h.mem_iff, by simp [hempty], fun k entry hentry => ?_, h.bounded, h.off⟩
    have hkey : k ∈ c.order := (h.mem_iff k).mpr (AList.lookup_isSome.mp (hentry ▸ rfl))
    rw [hempty] at hkey
    exact absurd hkey List.not_mem_nil
  · obtain ⟨horder, hmap, hlookup⟩ := h.put_spec key hoff now dek
    refine ⟨fun k => by rw [horder, hmap], ?_, fun k entry hentry => ?_, ?_, fun h => absurd h hoff⟩
    · rw [horder]
      exact (h.sorted_touch hused).sublist (List.drop_sublist _ _)
    · have hentry := hlookup k entry hentry
      by_cases hkey : k = key
      · subst hkey
        rw [AList.lookup_insert, Option.some.injEq] at hentry
        subst hentry
        simp [lastPut_concat, hinput, putUnder]
      · rw [AList.lookup_insert_ne hkey] at hentry
        rw [hlast k hkey]
        exact h.latest k entry hentry
    · rw [horder, List.rtake, List.length_drop]
      omega

theorem Recency.get {now : ℕ} (h : Recency l past c) (hinput : step.input = .get now key)
    (hstep : l.get now key c = (step.output, c')) :
    Recency l (past ++ [step]) c' ∧ ∀ dek, step.output = some dek →
      ∃ inserted, lastPut key past = some (inserted, dek) ∧ now < inserted + l.ttl := by
  have hput : ∀ k, putUnder k step.input = none := fun k => by rw [hinput]; rfl
  have hnone : step.output = none → usedKey step = none := fun hout => by
    simp [usedKey, hinput, hout]
  rw [DekCache.Limits.get] at hstep
  split at hstep
  · obtain ⟨hout, rfl⟩ := Prod.mk.inj hstep
    refine ⟨h.drop (hnone hout.symm) hput (List.Sublist.refl _) h.mem_iff fun _ _ => id, ?_⟩
    simp [← hout]
  rename_i hon
  split at hstep
  · obtain ⟨hout, rfl⟩ := Prod.mk.inj hstep
    refine ⟨h.drop (hnone hout.symm) hput (List.Sublist.refl _) h.mem_iff fun _ _ => id, ?_⟩
    simp [← hout]
  rename_i entry hentry
  split at hstep
  · obtain ⟨hout, rfl⟩ := Prod.mk.inj hstep
    refine ⟨h.drop (hnone hout.symm) hput List.erase_sublist (fun k => ?_)
      fun _ _ => DekCache.lookup_of_erase, by simp [← hout]⟩
    rw [h.nodup.mem_erase_iff, h.mem_iff, AList.mem_erase]
  · rename_i hfresh
    obtain ⟨hout, rfl⟩ := Prod.mk.inj hstep
    have hused : usedKey step = some key := by simp [usedKey, hinput, ← hout]
    have hkey : key ∈ c.order := (h.mem_iff key).mpr (AList.lookup_isSome.mp (hentry ▸ rfl))
    refine ⟨⟨fun k => ?_, h.sorted_touch hused, fun k e he => ?_, ?_, fun h => absurd h hon⟩, ?_⟩
    · rw [List.mem_append, h.nodup.mem_erase_iff, List.mem_singleton, h.mem_iff]
      by_cases heq : k = key
      · simp [heq, (h.mem_iff key).mp hkey]
      · simp [heq]
    · rw [lastPut_concat, hput, Option.none_or]
      exact h.latest k e he
    · have hpos := List.length_pos_of_mem hkey
      have hbounded := h.bounded
      rw [List.length_append, List.length_erase_of_mem hkey, List.length_singleton]
      omega
    · intro dek hdek
      rw [← hout, Option.some.injEq] at hdek
      subst hdek
      exact ⟨entry.inserted, h.latest key entry hentry, by omega⟩

theorem Recency.call (h : Recency l past step.before)
    (hstep : l.call step.input step.before = (step.output, step.after)) :
    Recency l (past ++ [step]) step.after := by
  cases hinput : step.input with
  | get now key =>
    rw [hinput] at hstep
    exact (h.get hinput hstep).1
  | put now key dek =>
    rw [hinput, DekCache.Limits.call, Prod.mk.injEq] at hstep
    rw [← hstep.2]
    exact h.put hinput
  | flush =>
    rw [hinput, DekCache.Limits.call, Prod.mk.injEq] at hstep
    rw [← hstep.2]
    refine h.drop (by simp [usedKey, hinput]) (fun k => by rw [hinput]; rfl) (List.nil_sublist _)
      (fun k => ?_) (fun k entry hentry => ?_)
    · simp [DekCache.flush]
    · simp [DekCache.flush] at hentry

theorem recency_of_cacheSteps {calls : List CacheCall} {before after : List CacheStep}
    (h : cacheSteps l calls = before ++ step :: after) :
    Recency l before step.before ∧ Recency l (before ++ [step]) step.after :=
  Run.invariant_history
    ⟨fun key => by simp, List.Pairwise.nil, fun key entry h => by simp at h, Nat.zero_le _,
      fun _ => rfl⟩
    (fun _ _ hstep h => h.call (Run.mem_steps hstep).2) h

theorem Recency.evicted {now : ℕ} {dek evicted : Bytes} (h : Recency l past c)
    (hinput : step.input = .put now key dek) (hevicted : evicted ∈ c.map)
    (hgone : evicted ∉ (l.put now key dek c).map) (hother : other ∈ c.map ∨ other = key)
    (hne : other ≠ evicted) :
    lastUse evicted (past ++ [step]) < lastUse other (past ++ [step]) := by
  have hon : l.ttl ≠ 0 := fun hoff => by
    rw [← h.mem_iff, h.off hoff] at hevicted
    exact List.not_mem_nil hevicted
  have hused : usedKey step = some key := by simp [usedKey, hinput]
  have hsorted := h.sorted_touch hused
  have hmem : ∀ k, k ∈ c.map ∨ k = key → k ∈ c.order.erase key ++ [key] := by
    intro k hk
    rw [List.mem_append, h.nodup.mem_erase_iff, List.mem_singleton, h.mem_iff]
    tauto
  have hlength : (c.order.erase key ++ [key]).length ≤ l.max + 1 := by
    have := h.bounded
    have := (List.erase_sublist (a := key) (l := c.order)).length_le
    rw [List.length_append, List.length_singleton]
    omega
  rw [(h.put_spec key hon now dek).2.1] at hgone
  -- The part the put cuts off has at most one key.
  generalize c.order.erase key ++ [key] = order at hsorted hmem hlength hgone
  have hone : (order.rdrop l.max).length ≤ 1 := by
    rw [List.rdrop, List.length_take]
    omega
  rw [← List.take_append_drop (order.length - l.max) order] at hsorted hmem
  have hcut := (List.mem_append.mp (hmem evicted (.inl hevicted))).resolve_right hgone
  rcases List.mem_append.mp (hmem other hother) with hfirst | hlast
  · obtain ⟨only, honly⟩ := List.length_eq_one_iff.mp (le_antisymm hone (List.length_pos_of_mem hcut))
    rw [← List.rdrop, honly, List.mem_singleton] at hcut hfirst
    exact absurd (hfirst.trans hcut.symm) hne
  · exact (List.pairwise_append.mp hsorted).2.2 evicted hcut other hlast

end

/-- **The representation of the data-key cache**: whatever calls come at whatever times, the order
lists the keys of the map without repetition and the map stays within its bound, what a put drops
was used before every other entry, a get hands out only the data key put last under its key and
less than the time to live ago, and with no time to live nothing is stored. -/
theorem dek_cache_represents_history (ttl max : ℕ) (calls : List CacheCall)
    (before : List CacheStep) (step : CacheStep) (after : List CacheStep)
    (h : cacheSteps (.new ttl max) calls = before ++ step :: after) :
    (∀ c ∈ [step.before, step.after], c.order.Nodup ∧ (∀ key, key ∈ c.order ↔ key ∈ c.map) ∧
      c.map.entries.length ≤ (DekCache.Limits.new ttl max).max ∧ (ttl = 0 → c.map = ∅)) ∧
    (∀ now key dek, step.input = .put now key dek →
      ∀ evicted, evicted ∈ step.before.map → evicted ∉ step.after.map →
        ∀ other, other ∈ step.before.map ∨ other = key → other ≠ evicted →
          lastUse evicted (before ++ [step]) < lastUse other (before ++ [step])) ∧
    (∀ now key, step.input = .get now key → ∀ dek, step.output = some dek →
      ∃ inserted, lastPut key before = some (inserted, dek) ∧ now < inserted + ttl) := by
  obtain ⟨hbefore, hafter⟩ := recency_of_cacheSteps h
  have hstep := (Run.mem_steps (h ▸ List.mem_append_cons_self)).2
  have hstate : ∀ {past c}, Recency (.new ttl max) past c →
      c.order.Nodup ∧ (∀ key, key ∈ c.order ↔ key ∈ c.map) ∧
        c.map.entries.length ≤ (DekCache.Limits.new ttl max).max ∧ (ttl = 0 → c.map = ∅) := by
    intro past c hc
    have hlength := Recent.length_entries_of_mem_iff hc.nodup hc.mem_iff
    refine ⟨hc.nodup, hc.mem_iff, hlength ▸ hc.bounded, fun hoff => AList.ext ?_⟩
    rw [hc.off hoff] at hlength
    exact List.length_eq_zero_iff.mp hlength
  refine ⟨by simpa using ⟨hstate hbefore, hstate hafter⟩, fun now key dek hinput => ?_,
    fun now key hinput => ?_⟩
  · rw [hinput, DekCache.Limits.call, Prod.mk.injEq] at hstep
    rw [← hstep.2]
    exact fun evicted hevicted hgone other => hbefore.evicted hinput hevicted hgone
  · rw [hinput, DekCache.Limits.call] at hstep
    exact (hbefore.get hinput hstep).2

/-- The third put into a cache of two drops the second key, since the first was read after it. -/
theorem dek_cache_represents_history_read : ∃ before step,
    cacheSteps (.new 300 2) [.put 0 [1] [10], .put 1 [2] [20], .get 2 [1], .put 3 [3] [30]] =
      before ++ [step] ∧ [2] ∈ step.before.map ∧ [2] ∉ step.after.map ∧
        lastUse [2] (before ++ [step]) < lastUse [1] (before ++ [step]) :=
  ⟨[_, _, _], _, rfl, by decide, by decide, (dek_cache_represents_history 300 2
      [.put 0 [1] [10], .put 1 [2] [20], .get 2 [1], .put 3 [3] [30]] [_, _, _] _ [] rfl).2.1
      3 [3] [30] rfl [2] (by decide) (by decide) [1] (by decide) (by decide)⟩

end Signer
