import Signer.Text.Basic

/-!
# Form-encoded strings

Strings of `name=value` pieces joined by `&`. Splitting such a string on `&` gives the
pieces back when no name or value contains the separator, and the name of a piece is
what stands before its first `=`.
-/

namespace Signer.Text

variable {sep : Char} {pairs : List (String × String)} {s : String} {pair : String × String}
  {names : List String}

/-- The name of a piece: what stands before its first `=`. -/
def pieceName (piece : String) : String := beforeFirst '=' piece

/-- The value of a piece: what stands behind its first `=`. -/
def pieceValue (piece : String) : String := .ofList ((piece.toList.dropWhile (· ≠ '=')).drop 1)

def pieces (s : String) : List String := split '&' s

def formPiece (pair : String × String) : String := pair.1 ++ "=" ++ pair.2

/-- `name=value` pieces joined by `&`. -/
def formEncode (pairs : List (String × String)) : String :=
  .ofList (['&'].intercalate (pairs.map fun pair => (formPiece pair).toList))

@[simp] theorem formEncode_singleton (pair : String × String) :
    formEncode [pair] = formPiece pair :=
  String.toList_inj.mp (by simp [formEncode])

def values (name s : String) : List String :=
  ((pieces s).filter fun piece => pieceName piece = name).map pieceValue

def NoAmp (s : String) : Prop := '&' ∉ s.toList

theorem split_intercalate {text : String} {parts : List String} (hne : parts ≠ [])
    (hparts : ∀ part ∈ parts, sep ∉ part.toList)
    (htext : text.toList = [sep].intercalate (parts.map String.toList)) :
    split sep text = parts := by
  have hnotMem : ∀ cs ∈ parts.map String.toList, sep ∉ cs := by
    intro cs hcs
    obtain ⟨part, hpart, rfl⟩ := List.mem_map.mp hcs
    exact hparts part hpart
  rw [split, htext, List.splitOn_intercalate sep hnotMem (by simpa using hne), List.map_map]
  exact (List.map_congr_left fun part _ => String.ofList_toList).trans (List.map_id _)

theorem pieces_formEncode (hne : pairs ≠ [])
    (hpairs : ∀ pair ∈ pairs, NoAmp pair.1 ∧ NoAmp pair.2) :
    pieces (formEncode pairs) = pairs.map formPiece := by
  refine split_intercalate (by simpa using hne) ?_ ?_
  · intro part hpart
    obtain ⟨pair, hpair, rfl⟩ := List.mem_map.mp hpart
    obtain ⟨hname, hvalue⟩ := hpairs pair hpair
    simpa [formPiece] using ⟨hname, hvalue⟩
  · rw [formEncode, String.toList_ofList, List.map_map, Function.comp_def]

theorem split_append_cons (sep : Char) {a b text : String}
    (htext : text.toList = a.toList ++ sep :: b.toList) :
    split sep text = split sep a ++ split sep b := by
  have hsplit : (a.toList ++ sep :: b.toList).splitOnP (· == sep) =
      a.toList.splitOnP (· == sep) ++ b.toList.splitOnP (· == sep) :=
    List.splitOnP_append_cons _ _ (by simp)
  simp only [split, List.splitOn, htext, hsplit, List.map_append]

theorem split_of_notMem (h : sep ∉ s.toList) : split sep s = [s] := by
  have hsplit : s.toList.splitOnP (· == sep) = [s.toList] := by
    apply List.splitOnP_eq_singleton
    intro c hc
    have hne : c ≠ sep := fun he => h (he ▸ hc)
    simpa using hne
  simp [split, List.splitOn, hsplit]

theorem mem_of_mem_intercalate {c : Char} {parts : List (List Char)}
    (h : c ∈ [sep].intercalate parts) : c = sep ∨ ∃ part ∈ parts, c ∈ part := by
  induction parts with
  | nil => simp at h
  | cons part parts ih =>
    cases parts with
    | nil => exact .inr ⟨part, List.mem_singleton_self _, by simpa using h⟩
    | cons next parts =>
      rw [List.intercalate_cons_cons, List.mem_append, List.mem_append, List.mem_singleton] at h
      rcases h with (hpart | hsep) | hrest
      · exact .inr ⟨part, List.mem_cons_self, hpart⟩
      · exact .inl hsep
      · exact (ih hrest).imp_right fun ⟨p, hp, hc⟩ => ⟨p, List.mem_cons_of_mem _ hp, hc⟩

theorem mem_formEncode {c : Char} (h : c ∈ (formEncode pairs).toList) :
    c = '&' ∨ c = '=' ∨ ∃ pair ∈ pairs, c ∈ pair.1.toList ∨ c ∈ pair.2.toList := by
  rw [formEncode, String.toList_ofList] at h
  rcases mem_of_mem_intercalate h with hsep | ⟨part, hpart, hc⟩
  · exact .inl hsep
  · obtain ⟨pair, hpair, rfl⟩ := List.mem_map.mp hpart
    simp only [formPiece, String.toList_append, List.mem_append] at hc
    rcases hc with (hname | heq) | hvalue
    · exact .inr (.inr ⟨pair, hpair, .inl hname⟩)
    · exact .inr (.inl (by simpa using heq))
    · exact .inr (.inr ⟨pair, hpair, .inr hvalue⟩)

theorem formEncode_ne_empty (hne : pairs ≠ []) :
    formEncode pairs ≠ "" := by
  obtain ⟨pair, rest, rfl⟩ := List.exists_cons_of_ne_nil hne
  intro h
  have hchars := congrArg String.toList h
  cases rest <;> simp [formEncode, formPiece] at hchars

theorem eq_formEncode_of_pieces (h : pieces s = pairs.map formPiece) : s = formEncode pairs := by
  have hparts : s.toList.splitOn '&' = pairs.map fun pair => (formPiece pair).toList := by
    have htoList := congrArg (List.map String.toList) h
    simpa [pieces, split, Function.comp_def] using htoList
  have hjoin : ['&'].intercalate (s.toList.splitOn '&') = s.toList := List.intercalate_splitOn '&'
  apply String.toList_inj.mp
  rw [formEncode, String.toList_ofList, ← hparts, hjoin]

theorem pieces_append (a b : String) : pieces (a ++ "&" ++ b) = pieces a ++ pieces b :=
  split_append_cons '&' (by simp)

theorem pieces_of_noAmp (h : NoAmp s) : pieces s = [s] := split_of_notMem h

theorem takeWhile_formPiece (hname : '=' ∉ pair.1.toList) :
    (formPiece pair).toList.takeWhile (· ≠ '=') = pair.1.toList ∧
      (formPiece pair).toList.dropWhile (· ≠ '=') = '=' :: pair.2.toList := by
  have hparts : (formPiece pair).toList = pair.1.toList ++ '=' :: pair.2.toList := by
    simp [formPiece]
  rw [hparts]
  exact takeWhile_sep hname

theorem pieceName_formPiece (hname : '=' ∉ pair.1.toList) :
    pieceName (formPiece pair) = pair.1 := by
  simp only [pieceName, beforeFirst, (takeWhile_formPiece hname).1, String.ofList_toList]

theorem pieceValue_formPiece (hname : '=' ∉ pair.1.toList) :
    pieceValue (formPiece pair) = pair.2 := by
  simp only [pieceValue, (takeWhile_formPiece hname).2, List.drop_succ_cons, List.drop_zero,
    String.ofList_toList]

theorem formPiece_of_splitOnce {piece k v : String} (h : splitOnce '=' piece = some (k, v)) :
    piece = formPiece (k, v) ∧ '=' ∉ k.toList := by
  obtain ⟨hpiece, hname⟩ := splitOnce_eq_some h
  exact ⟨String.toList_inj.mp (by simpa [formPiece] using hpiece), hname⟩

/-- The parameters of a form-encoded string, split on `&` and each piece at its first `=`. -/
def formPairs (s : String) : Option (List (String × String)) := (pieces s).mapM (splitOnce '=')

theorem mapM_map_eq_some {α β : Type} {f : α → Option β} {g : β → α} {items : List β}
    (h : ∀ item ∈ items, f (g item) = some item) : (items.map g).mapM f = some items := by
  induction items with
  | nil => rfl
  | cons item items ih =>
    have hrest := ih fun other hother => h other (List.mem_cons_of_mem _ hother)
    simp [h item List.mem_cons_self, hrest]

theorem splitOnce_formPiece (hname : '=' ∉ pair.1.toList) :
    splitOnce '=' (formPiece pair) = some pair :=
  splitOnce_of_toList (by simp [formPiece]) hname

theorem formPairs_formEncode (hne : pairs ≠ []) (hamp : ∀ pair ∈ pairs, NoAmp pair.1 ∧ NoAmp pair.2)
    (hnames : ∀ pair ∈ pairs, '=' ∉ pair.1.toList) :
    formPairs (formEncode pairs) = some pairs := by
  rw [formPairs, pieces_formEncode hne hamp]
  exact mapM_map_eq_some fun pair hpair => splitOnce_formPiece (hnames pair hpair)

theorem values_of_pieces (name : String) (hpieces : pieces s = pairs.map formPiece)
    (hnames : ∀ pair ∈ pairs, '=' ∉ pair.1.toList) :
    values name s = (pairs.filter fun pair => pair.1 = name).map Prod.snd := by
  simp only [values, hpieces, List.filter_map, List.map_map]
  have hfilter : (pairs.filter fun pair => decide (pieceName (formPiece pair) = name)) =
      pairs.filter fun pair => decide (pair.1 = name) :=
    List.filter_congr fun pair hpair => by rw [pieceName_formPiece (hnames pair hpair)]
  simp only [Function.comp_def, hfilter]
  exact List.map_congr_left fun pair hpair =>
    pieceValue_formPiece (hnames pair (List.mem_of_mem_filter hpair))

/-! ### Strings whose names are listed -/

/-- Every piece is empty or has one of the names. -/
def NamesIn (names : List String) (s : String) : Prop :=
  ∀ piece ∈ pieces s, piece = "" ∨ pieceName piece ∈ names

theorem namesIn_empty : NamesIn names "" := by
  intro piece hpiece
  rw [pieces_of_noAmp (by simp [NoAmp])] at hpiece
  exact .inl (List.mem_singleton.mp hpiece)

theorem NamesIn.mono {names' : List String} (h : NamesIn names s) (hsub : names ⊆ names') :
    NamesIn names' s :=
  fun piece hpiece => (h piece hpiece).imp_right fun hname => hsub hname

theorem namesIn_formEncode (hnames : ∀ pair ∈ pairs, pair.1 ∈ names ∧ '=' ∉ pair.1.toList)
    (hamp : ∀ pair ∈ pairs, NoAmp pair.1 ∧ NoAmp pair.2) : NamesIn names (formEncode pairs) := by
  rcases eq_or_ne pairs [] with rfl | hne
  · exact namesIn_empty
  · intro piece hpiece
    rw [pieces_formEncode hne hamp] at hpiece
    obtain ⟨pair, hpair, rfl⟩ := List.mem_map.mp hpiece
    rw [pieceName_formPiece (hnames pair hpair).2]
    exact .inr (hnames pair hpair).1

end Signer.Text
