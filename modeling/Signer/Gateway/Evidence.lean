import Signer.CivilCalendar
import Signer.Gateway.Auth
import Signer.Gateway.Bundles

/-!
# Where the gateway keeps its evidence

Receipts and incident bundles go into a directory named after the customer. The name is cleaned
first, and cleaning is not one to one; a bundle is named after the second its run started in.
-/

namespace Signer.Gateway

open Text

structure ArchivePath where
  directory : String
  file : String
  deriving DecidableEq

/-- `Path::join`, for a name that is not absolute. -/
def joinPath (dir name : String) : String :=
  if dir = "" ∨ endsWith dir "/" then dir ++ name else dir ++ "/" ++ name

def safeChar (c : Char) : Char :=
  if isAsciiAlphanumeric c ∨ c = '-' ∨ c = '_' then c else '_'

def safeLabel (customer : String) : String := .ofList (customer.toList.map safeChar)

/-- The file `record_in` appends to. -/
def recordIn (dir customer : String) (now : UInt64) : ArchivePath :=
  { directory := joinPath dir (safeLabel customer), file := utcDate now ++ ".jsonl" }

/-- The file `write_bundle` writes. -/
def writeBundle (dir : String) (bundle : IncidentBundle) : ArchivePath :=
  { directory := joinPath dir (.ofList (bundle.customer.toList.map safeChar))
    file := bundle.startedUnix.repr ++ "-reconcile.json" }

/-- Evidence of two customers is in different directories, and no run replaces a bundle of another.
-/
structure KeptApart (dir a b : String) (runs : List IncidentBundle) : Prop where
  receipts : ∀ now now', (recordIn dir a now).directory ≠ (recordIn dir b now').directory
  bundles : ∀ x y : IncidentBundle, x.customer = a → y.customer = b →
    (writeBundle dir x).directory ≠ (writeBundle dir y).directory
  runs : runs.Pairwise fun x y => x.customer = y.customer → writeBundle dir x ≠ writeBundle dir y

def Pooled (c : Char) : Prop := ¬ (isAsciiAlphanumeric c ∨ c = '-')

/-- Names that differ at most in characters that become the same one. -/
def Alike (a b : String) : Prop :=
  List.Forall₂ (fun c d => c = d ∨ (Pooled c ∧ Pooled d)) a.toList b.toList

theorem safeChar_of_pooled {c : Char} (h : Pooled c) : safeChar c = '_' := by
  rw [Pooled, not_or] at h
  rw [safeChar]
  split
  · rename_i hsafe
    exact (hsafe.resolve_left h.1).resolve_left h.2
  · rfl

theorem safeChar_of_not_pooled {c : Char} (h : ¬ Pooled c) : safeChar c = c ∧ c ≠ '_' := by
  have hsafe := not_not.mp h
  refine ⟨if_pos (hsafe.imp_right .inl), ?_⟩
  rintro rfl
  exact absurd hsafe (by decide)

theorem safeChar_eq_iff {c d : Char} :
    safeChar c = safeChar d ↔ c = d ∨ (Pooled c ∧ Pooled d) := by
  constructor
  · intro h
    by_cases hc : Pooled c <;> by_cases hd : Pooled d
    · exact .inr ⟨hc, hd⟩
    · rw [safeChar_of_pooled hc, (safeChar_of_not_pooled hd).1] at h
      exact absurd h.symm (safeChar_of_not_pooled hd).2
    · rw [safeChar_of_pooled hd, (safeChar_of_not_pooled hc).1] at h
      exact absurd h (safeChar_of_not_pooled hc).2
    · rw [(safeChar_of_not_pooled hc).1, (safeChar_of_not_pooled hd).1] at h
      exact .inl h
  · rintro (rfl | ⟨hc, hd⟩)
    · rfl
    · rw [safeChar_of_pooled hc, safeChar_of_pooled hd]

theorem joinPath_inj {dir name name' : String} :
    joinPath dir name = joinPath dir name' ↔ name = name' := by
  refine ⟨fun h => ?_, fun h => h ▸ rfl⟩
  have hlist := congrArg String.toList h
  unfold joinPath at hlist
  split at hlist <;> exact String.toList_inj.mp (by simpa using hlist)

theorem directory_eq_iff {dir a b : String} :
    joinPath dir (.ofList (a.toList.map safeChar)) = joinPath dir (.ofList (b.toList.map safeChar)) ↔
      Alike a b := by
  rw [joinPath_inj, String.ofList_inj, ← List.forall₂_eq_eq_eq, List.forall₂_map_left_iff,
    List.forall₂_map_right_iff, Alike]
  simp only [safeChar_eq_iff]

theorem writeBundle_eq_iff {dir : String} {x y : IncidentBundle} (h : x.customer = y.customer) :
    writeBundle dir x = writeBundle dir y ↔ x.startedUnix = y.startedUnix := by
  rw [writeBundle, writeBundle, h, ArchivePath.mk.injEq, eq_self, true_and]
  refine ⟨fun heq => repr_injective (String.toList_inj.mp ?_), fun heq => by rw [heq]⟩
  simpa using congrArg String.toList heq

/-- A run writes one bundle. Its file is named after the clock reading the run begins with. -/
theorem run_writeBundle (dir customer : String) {venues : List String} (hnodup : venues.Nodup) :
    (run customer venues).Follows anything [] fun now _ => ∃ started : ℕ,
      now.head? = some ⟨.nowUnix, started⟩ ∧ (bundles now).map (writeBundle dir) =
        [⟨joinPath dir (safeLabel customer), started.repr ++ "-reconcile.json"⟩] := by
  refine (run_keeps customer hnodup).mono fun now _ hkept => ?_
  obtain ⟨bundle, u, hbundles, rfl, hstarted, -⟩ := hkept
  exact ⟨bundle.startedUnix, hstarted, by rw [hbundles]; rfl⟩

/-- **Evidence kept apart**: the archives and bundles of two customers are in different directories
at all times, and no run of a customer writes where another did, exactly if the labels differ in
more than the characters a path does not keep, and no two runs of a customer start in one second. -/
theorem evidence_kept_apart_iff (dir a b : String) (runs : List IncidentBundle) :
    KeptApart dir a b runs ↔ ¬ Alike a b ∧
      runs.Pairwise fun x y => x.customer = y.customer → x.startedUnix ≠ y.startedUnix := by
  have hruns : (runs.Pairwise fun x y => x.customer = y.customer →
      writeBundle dir x ≠ writeBundle dir y) ↔
      runs.Pairwise fun x y => x.customer = y.customer → x.startedUnix ≠ y.startedUnix := by
    refine List.Pairwise.iff fun x y => ?_
    exact forall_congr' fun h => not_congr (writeBundle_eq_iff h)
  constructor
  · rintro ⟨hreceipts, -, hpaths⟩
    exact ⟨fun halike => hreceipts 0 0 (directory_eq_iff.mpr halike), hruns.mp hpaths⟩
  · rintro ⟨hlabels, hstarts⟩
    refine ⟨fun _ _ h => hlabels (directory_eq_iff.mp h), ?_, hruns.mpr hstarts⟩
    rintro x y rfl rfl h
    exact hlabels (directory_eq_iff.mp h)

def Sample.emptyBundle (customer : String) (started finished : ℕ) : IncidentBundle :=
  { customer, tenantState := .halted, startedUnix := started, finishedUnix := finished
    phase := .done, rounds := 1, venues := [], before := [], after := [], raw := [] }

/-- Two accepted labels share their directory, and two runs in one second their bundle. -/
theorem evidence_mixed_and_replaced :
    (∃ auth, fromEnvVar Sample.tokenDigests { tokens := .ok "tok:a b,u:a_b" } = .ok auth ∧
      auth.hashes.map Prod.snd = ["a b", "a_b"]) ∧
    (recordIn "/var/lib/signer/receipts" "a b" 0).directory =
      (recordIn "/var/lib/signer/receipts" "a_b" 0).directory ∧
    Sample.emptyBundle "acme" 7 7 ≠ Sample.emptyBundle "acme" 7 8 ∧
    writeBundle "/var/lib/signer/incidents" (Sample.emptyBundle "acme" 7 7) =
      writeBundle "/var/lib/signer/incidents" (Sample.emptyBundle "acme" 7 8) := by
  refine ⟨⟨⟨[(Sample.tokenDigests (bytes "tok"), "a b"), (Sample.tokenDigests (bytes "u"), "a_b")]⟩,
    by decide +kernel, rfl⟩, by decide +kernel, fun h => ?_, rfl⟩
  exact absurd (congrArg IncidentBundle.finishedUnix h) (by decide)

end Signer.Gateway
