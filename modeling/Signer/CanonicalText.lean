import Signer.Canonical
import Signer.Text.Form

/-!
# What a canonical string consists of

The Binance string is form-encoded, so its pieces are those of the query it is made of, followed by
the time and the window. The KuCoin and OKX strings have no separators, yet they determine the
timestamp and the method: the timestamp ends at the first letter or the first `Z`, and no method
begins another. Path and body are determined only together.
-/

namespace Signer

open Text

variable {c : Char} {ts : UInt64} {m m' : String}

theorem repr_injective : Function.Injective Nat.repr := by
  intro m n h
  have hdigits := congrArg String.toList h
  rw [Nat.toList_repr, Nat.toList_repr] at hdigits
  have hvalue := congrArg (fun digits => Nat.ofDigitChars 10 digits 0) hdigits
  simpa only [Nat.ofDigitChars_ten_toDigits] using hvalue

theorem isDigit_of_mem_repr {n : ℕ} (h : c ∈ n.repr.toList) : c.isDigit = true := by
  rw [Nat.toList_repr] at h
  exact Nat.isDigit_of_mem_toDigits (by decide) (by decide) h

theorem isDigit_of_mem_decimalText {n : UInt64} (h : c ∈ (decimalText n).toList) :
    c.isDigit = true :=
  isDigit_of_mem_repr h

theorem noAmp_decimalText (n : UInt64) : NoAmp (decimalText n) := fun h =>
  absurd (isDigit_of_mem_decimalText h) (by decide)

/-- The parameters `compute_binance_headers` appends. -/
def binanceTail (timestampMs : UInt64) : List (String × String) :=
  [("timestamp", decimalText timestampMs), ("recvWindow", "5000")]

theorem pieces_binanceFullQuery (ts : UInt64) (q : String) :
    pieces (binanceFullQuery ts q) =
      (if q = "" then [] else pieces q) ++ (binanceTail ts).map formPiece := by
  have htail : pieces ("timestamp=" ++ decimalText ts ++ "&" ++ "recvWindow=5000") =
      (binanceTail ts).map formPiece := by
    have hts := noAmp_decimalText ts
    rw [pieces_append, pieces_of_noAmp (by simpa [NoAmp] using hts),
      pieces_of_noAmp (by simp [NoAmp])]
    apply List.ext_getElem <;> simp [binanceTail, formPiece]
  by_cases hq : q = ""
  · have htext : binanceFullQuery ts q =
        "timestamp=" ++ decimalText ts ++ "&" ++ "recvWindow=5000" := by
      apply String.toList_inj.mp
      simp [binanceFullQuery, hq]
    rw [htext, htail, if_pos hq, List.nil_append]
  · have htext : binanceFullQuery ts q =
        q ++ "&" ++ ("timestamp=" ++ decimalText ts ++ "&" ++ "recvWindow=5000") := by
      apply String.toList_inj.mp
      simp [binanceFullQuery, hq]
    rw [htext, pieces_append, htail, if_neg hq]

theorem pieces_signedPairs (ts : UInt64) {pairs : List (String × String)}
    (hpairs : ∀ pair ∈ pairs, NoAmp pair.1 ∧ NoAmp pair.2) :
    pieces (binanceCanonical (binanceFullQuery ts (formEncode pairs)) "") =
      (pairs ++ binanceTail ts).map formPiece := by
  rw [binanceCanonical, String.append_empty, pieces_binanceFullQuery, List.map_append]
  congr 1
  cases pairs with
  | nil => rfl
  | cons pair rest =>
    have hpieces := pieces_formEncode (List.cons_ne_nil pair rest) hpairs
    have hquery : formEncode (pair :: rest) ≠ "" := by
      intro h
      rw [h, pieces_of_noAmp (by simp [NoAmp])] at hpieces
      simpa [formPiece] using congrArg String.toList (List.cons.inj hpieces).1
    rw [if_neg hquery, hpieces]

theorem values_signedPairs (ts : UInt64) {pairs : List (String × String)}
    (hpairs : ∀ pair ∈ pairs, NoAmp pair.1 ∧ NoAmp pair.2)
    (hnames : ∀ pair ∈ pairs, '=' ∉ pair.1.toList) (name : String) :
    values name (binanceCanonical (binanceFullQuery ts (formEncode pairs)) "") =
      ((pairs ++ binanceTail ts).filter fun pair => pair.1 = name).map Prod.snd := by
  refine values_of_pieces name (pieces_signedPairs ts hpairs) fun pair hpair => ?_
  rcases List.mem_append.mp hpair with hquery | htail
  · exact hnames pair hquery
  · simp only [binanceTail, List.mem_cons, List.not_mem_nil, or_false] at htail
    rcases htail with rfl | rfl <;> simp

theorem namesIn_binanceFullQuery {names : List String} {q : String} (h : NamesIn names q) :
    NamesIn ("timestamp" :: "recvWindow" :: names) (binanceFullQuery ts q) := by
  intro piece hpiece
  rw [pieces_binanceFullQuery, List.mem_append] at hpiece
  rcases hpiece with hquery | htail
  · split at hquery
    · cases hquery
    · exact (h piece hquery).imp_right fun hname =>
        List.mem_cons_of_mem _ (List.mem_cons_of_mem _ hname)
  · obtain ⟨pair, hpair, rfl⟩ := List.mem_map.mp htail
    right
    simp only [binanceTail, List.mem_cons, List.not_mem_nil, or_false] at hpair
    rcases hpair with rfl | rfl <;> rw [pieceName_formPiece (by simp)] <;> simp

/-! ### Timestamp and method are determined -/

theorem append_inj_of_takeWhile {p : Char → Bool} {xs ys xs' ys' : List Char}
    (hxs : ∀ c ∈ xs, p c = true) (hxs' : ∀ c ∈ xs', p c = true) (hys : ys.takeWhile p = [])
    (hys' : ys'.takeWhile p = []) (h : xs ++ ys = xs' ++ ys') : xs = xs' ∧ ys = ys' := by
  have htake := congrArg (List.takeWhile p) h
  rw [List.takeWhile_append_of_pos hxs, List.takeWhile_append_of_pos hxs', hys, hys',
    List.append_nil, List.append_nil] at htake
  subst htake
  exact ⟨rfl, List.append_cancel_left h⟩

theorem toAsciiUppercase_of_mem (hm : m ∈ allowedMethods) :
    toAsciiUppercase m = m := by
  revert m
  decide

theorem method_append_inj {r r' : List Char} (hm : m ∈ allowedMethods) (hm' : m' ∈ allowedMethods)
    (h : m.toList ++ r = m'.toList ++ r') : m = m' ∧ r = r' := by
  simp only [allowedMethods, List.mem_cons, List.not_mem_nil, or_false] at hm hm'
  rcases hm with rfl | rfl | rfl | rfl <;> rcases hm' with rfl | rfl | rfl | rfl <;>
    simp at h ⊢ <;> exact h

theorem takeWhile_isDigit_method {r : List Char} (hm : m ∈ allowedMethods) :
    (m.toList ++ r).takeWhile Char.isDigit = [] := by
  simp only [allowedMethods, List.mem_cons, List.not_mem_nil, or_false] at hm
  rcases hm with rfl | rfl | rfl | rfl <;> simp [Char.isDigit]

theorem kucoinCanonical_inj {ts' : UInt64} {path path' body body' : String}
    (hm : m ∈ allowedMethods) (hm' : m' ∈ allowedMethods)
    (h : kucoinCanonical ts m path body = kucoinCanonical ts' m' path' body') :
    decimalText ts = decimalText ts' ∧ m = m' ∧ path ++ body = path' ++ body' := by
  simp only [kucoinCanonical, toAsciiUppercase_of_mem hm, toAsciiUppercase_of_mem hm',
    String.append_assoc] at h
  have hlist := congrArg String.toList h
  simp only [String.toList_append] at hlist
  obtain ⟨hts, hrest⟩ := append_inj_of_takeWhile (fun c hc => isDigit_of_mem_decimalText hc)
    (fun c hc => isDigit_of_mem_decimalText hc) (takeWhile_isDigit_method hm)
    (takeWhile_isDigit_method hm') hlist
  obtain ⟨hmethod, hpath⟩ := method_append_inj hm hm' hrest
  refine ⟨String.toList_inj.mp hts, hmethod, String.toList_inj.mp ?_⟩
  simpa using hpath

theorem isDigit_of_mem_padDecimal {width n : Nat} (h : c ∈ padDecimal width n) :
    c.isDigit = true := by
  rcases List.mem_append.mp h with hzero | hdigit
  · rw [List.eq_of_mem_replicate hzero]
    rfl
  · exact Nat.isDigit_of_mem_toDigits (by decide) (by decide) hdigit

theorem CivilTime.mem_stamp {c : CivilTime} {ch : Char} (h : ch ∈ c.stamp) :
    ch.isDigit = true ∨ ch ∈ ['-', 'T', ':', '.'] := by
  have hdigits : ∀ width n, ch ∈ padDecimal width n → ch.isDigit = true := fun width n =>
    isDigit_of_mem_padDecimal
  simp only [CivilTime.stamp, List.mem_append, List.mem_cons] at h
  rcases h with (((((h | rfl | h) | rfl | h) | rfl | h) | rfl | h) | rfl | h) | rfl | h
  all_goals first | exact .inl (hdigits _ _ h) | exact .inr (by simp)

theorem okxCanonical_inj {ts' : UInt64} {path path' body body' : String} (hm : m ∈ allowedMethods)
    (hm' : m' ∈ allowedMethods) (h : okxCanonical (okxIso8601FromMs ts) m path body =
      okxCanonical (okxIso8601FromMs ts') m' path' body') :
    okxIso8601FromMs ts = okxIso8601FromMs ts' ∧ m = m' ∧ path ++ body = path' ++ body' := by
  simp only [okxCanonical, toAsciiUppercase_of_mem hm, toAsciiUppercase_of_mem hm',
    String.append_assoc] at h
  have hlist := congrArg String.toList h
  simp only [okxIso8601FromMs, String.toList_append, String.toList_ofList, List.append_assoc,
    List.singleton_append] at hlist
  have hne : ∀ ts, ∀ c ∈ (civilTime ts).stamp, decide (c ≠ 'Z') = true := by
    intro ts c hc
    rcases CivilTime.mem_stamp hc with hdigit | hmark
    · simpa using fun he : c = 'Z' => absurd (he ▸ hdigit) (by decide)
    · simpa using fun he : c = 'Z' => absurd (he ▸ hmark) (by decide)
  obtain ⟨hstamp, hrest⟩ :=
    append_inj_of_takeWhile (hne ts) (hne ts') (by simp) (by simp) hlist
  obtain ⟨hmethod, hpath⟩ := method_append_inj hm hm' (List.cons.inj hrest).2
  refine ⟨by rw [okxIso8601FromMs, hstamp, okxIso8601FromMs], hmethod, String.toList_inj.mp ?_⟩
  simpa using hpath

end Signer
