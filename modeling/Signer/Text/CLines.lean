import Signer.Text.Basic

/-!
# Lines as C reads them

`fgets` fills a buffer up to a newline, to the end of the stream or until the buffer is full, and
leaves the rest for the next call. What it stores is used as a C string, which ends at its first
NUL byte, wherever the newline is.
-/

namespace Signer.Text

def newline : UInt8 := 10

/-- `fgets` on a buffer with room for this many bytes and the closing NUL: what is stored, and the
rest of the stream. Nothing is stored at the end of the stream. -/
def fgets : ℕ → Bytes → Bytes × Bytes
  | 0, s => ([], s)
  | _ + 1, [] => ([], [])
  | room + 1, c :: s =>
    if c = newline then ([c], s) else (c :: (fgets room s).1, (fgets room s).2)

def cString (b : Bytes) : Bytes := b.takeWhile (· ≠ 0)

theorem cString_of_zero_notMem {b : Bytes} (h : 0 ∉ b) : cString b = b := by
  refine List.takeWhile_eq_self_iff.mpr fun c hc => ?_
  have hne : c ≠ 0 := fun hzero => h (by rwa [hzero] at hc)
  simpa using hne

theorem zero_notMem_cString (b : Bytes) : 0 ∉ cString b := sep_notMem_takeWhile

theorem length_cString_le (b : Bytes) : (cString b).length ≤ b.length :=
  (List.takeWhile_sublist _).length_le

theorem length_cString_lt {b : Bytes} (h : 0 ∈ b) : (cString b).length < b.length := by
  have hlength := congrArg List.length (takeWhile_append_sep h)
  rw [List.length_append, List.length_cons] at hlength
  rw [cString]
  omega

variable {room : ℕ} {s body rest : Bytes}

theorem fgets_append (room : ℕ) (s : Bytes) : (fgets room s).1 ++ (fgets room s).2 = s := by
  induction room generalizing s with
  | zero => rfl
  | succ room ih =>
    cases s with
    | nil => rfl
    | cons c s =>
      rw [fgets]
      split
      · rfl
      · rw [List.cons_append, ih]

theorem length_fgets_le (room : ℕ) (s : Bytes) : (fgets room s).1.length ≤ room := by
  induction room generalizing s with
  | zero => exact Nat.le_refl 0
  | succ room ih =>
    cases s with
    | nil => exact Nat.zero_le _
    | cons c s =>
      rw [fgets]
      split
      · simp
      · simpa using ih s

theorem newline_notMem_dropLast_fgets (room : ℕ) (s : Bytes) :
    newline ∉ (fgets room s).1.dropLast := by
  induction room generalizing s with
  | zero => simp [fgets]
  | succ room ih =>
    cases s with
    | nil => simp [fgets]
    | cons c s =>
      rw [fgets]
      split
      · simp
      · rename_i hc
        cases hstored : (fgets room s).1 with
        | nil => simp
        | cons d stored =>
          have hrest := ih s
          rw [hstored] at hrest
          rw [List.dropLast_cons_cons, List.mem_cons, not_or]
          exact ⟨fun h => hc h.symm, hrest⟩

theorem fgets_ne_nil (hroom : 0 < room) (hs : s ≠ []) : (fgets room s).1 ≠ [] := by
  obtain ⟨room, rfl⟩ := Nat.exists_eq_succ_of_ne_zero (Nat.ne_of_gt hroom)
  cases s with
  | nil => exact absurd rfl hs
  | cons c s =>
    rw [fgets]
    split <;> exact List.cons_ne_nil _ _

theorem fgets_line (hbody : newline ∉ body) (hfits : body.length < room) :
    fgets room (body ++ newline :: rest) = (body ++ [newline], rest) := by
  induction body generalizing room with
  | nil =>
    obtain ⟨room, rfl⟩ := Nat.exists_eq_succ_of_ne_zero (Nat.ne_of_gt hfits)
    rw [List.nil_append, fgets, if_pos rfl]
    rfl
  | cons c body ih =>
    obtain ⟨room, rfl⟩ := Nat.exists_eq_succ_of_ne_zero (Nat.ne_of_gt (Nat.zero_lt_of_lt hfits))
    obtain ⟨hc, hbody⟩ := not_or.mp (List.mem_cons.not.mp hbody)
    have hrest := ih hbody (Nat.lt_of_succ_lt_succ hfits)
    rw [List.cons_append, fgets, if_neg (Ne.symm hc), hrest]
    rfl

theorem fgets_long (hbody : newline ∉ body) (hlong : room ≤ body.length) :
    fgets room (body ++ rest) = (body.take room, body.drop room ++ rest) := by
  induction room generalizing body with
  | zero => rfl
  | succ room ih =>
    cases body with
    | nil => exact absurd hlong (by simp)
    | cons c body =>
      obtain ⟨hc, hbody⟩ := not_or.mp (List.mem_cons.not.mp hbody)
      have hrest := ih hbody (Nat.le_of_succ_le_succ hlong)
      rw [List.cons_append, fgets, if_neg (Ne.symm hc), hrest]
      rfl

/-! ### Reading to the end -/

def fillsFrom (room : ℕ) : ℕ → Bytes → List Bytes
  | 0, _ => []
  | fuel + 1, s =>
    if (fgets room s).1 = [] then []
    else (fgets room s).1 :: fillsFrom room fuel (fgets room s).2

def fills (room : ℕ) (s : Bytes) : List Bytes := fillsFrom room s.length s

theorem fillsFrom_nil (room fuel : ℕ) : fillsFrom room fuel [] = [] := by
  cases fuel <;> cases room <;> rfl

theorem fillsFrom_congr {fuel fuel' : ℕ} (h : s.length ≤ fuel) (h' : s.length ≤ fuel') :
    fillsFrom room fuel s = fillsFrom room fuel' s := by
  induction fuel generalizing fuel' s with
  | zero =>
    obtain rfl := List.eq_nil_of_length_eq_zero (Nat.le_zero.mp h)
    rw [fillsFrom_nil, fillsFrom_nil]
  | succ fuel ih =>
    cases fuel' with
    | zero =>
      obtain rfl := List.eq_nil_of_length_eq_zero (Nat.le_zero.mp h')
      rw [fillsFrom_nil, fillsFrom_nil]
    | succ fuel' =>
      rw [fillsFrom, fillsFrom]
      split
      · rfl
      · rename_i hne
        have hlength := congrArg List.length (fgets_append room s)
        have hpos := List.length_pos_iff.mpr hne
        rw [List.length_append] at hlength
        exact congrArg _ (ih (by omega) (by omega))

theorem fills_nil (room : ℕ) : fills room [] = [] := fillsFrom_nil room 0

theorem fills_eq_cons (hroom : 0 < room) (hs : s ≠ []) :
    fills room s = (fgets room s).1 :: fills room (fgets room s).2 := by
  have hne := fgets_ne_nil hroom hs
  have hlength := congrArg List.length (fgets_append room s)
  have hpos := List.length_pos_iff.mpr hne
  rw [List.length_append] at hlength
  obtain ⟨n, hn⟩ := Nat.exists_eq_succ_of_ne_zero (Nat.ne_of_gt (List.length_pos_iff.mpr hs))
  rw [fills, hn, fillsFrom, if_neg hne, fills, fillsFrom_congr (by omega) (Nat.le_refl _)]

theorem fills_line (hbody : newline ∉ body) (hfits : body.length < room) :
    fills room (body ++ newline :: rest) = (body ++ [newline]) :: fills room rest := by
  rw [fills_eq_cons (Nat.zero_lt_of_lt hfits) (by simp), fgets_line hbody hfits]

theorem fill_of_mem {fill : Bytes} (h : fill ∈ fills room s) :
    fill.length ≤ room ∧ newline ∉ fill.dropLast := by
  have hfrom : ∀ fuel s, fill ∈ fillsFrom room fuel s →
      fill.length ≤ room ∧ newline ∉ fill.dropLast := by
    intro fuel
    induction fuel with
    | zero => exact fun s h => absurd h List.not_mem_nil
    | succ fuel ih =>
      intro s h
      rw [fillsFrom] at h
      split at h
      · exact absurd h List.not_mem_nil
      · rcases List.mem_cons.mp h with rfl | h
        · exact ⟨length_fgets_le room s, newline_notMem_dropLast_fgets room s⟩
        · exact ih _ h
  exact hfrom _ _ h

end Signer.Text
