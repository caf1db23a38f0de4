import Signer.Text.Form

/-!
# Substring search in form-encoded strings

Looking for `name=` in a form-encoded string is not the same as splitting it: the characters may
stand inside a value or at the end of a longer name. The two agree where the first occurrence
stands at the start of a piece and no later piece starts with the same characters.
-/

namespace Signer.Text

variable {needle before after : List Char} {s name : String}

/-! ### The first occurrence -/

/-- The text before and after the first occurrence of a needle (`str::find`). -/
def cut (needle : List Char) : List Char → Option (List Char × List Char)
  | [] => if needle = [] then some ([], []) else none
  | c :: cs =>
    if needle.isPrefixOf (c :: cs) then some ([], (c :: cs).drop needle.length)
    else (cut needle cs).map fun (before, after) => (c :: before, after)

def contains (needle : String) (hay : List Char) : Bool := (cut needle.toList hay).isSome

/-- What stands at the end of a text starts a parameter there: the text is empty or ends
in `&`. -/
def atBoundary (before : List Char) : Bool := before = [] ∨ before.getLast? = some '&'

theorem cut_eq_some {hay : List Char} (h : cut needle hay = some (before, after)) :
    hay = before ++ needle ++ after := by
  induction hay generalizing before after with
  | nil =>
    simp only [cut, Option.ite_none_right_eq_some, Option.some.injEq, Prod.mk.injEq] at h
    obtain ⟨rfl, rfl, rfl⟩ := h
    rfl
  | cons c cs ih =>
    simp only [cut] at h
    split at h
    · rename_i hstart
      obtain ⟨rfl, rfl⟩ : [] = before ∧ (c :: cs).drop needle.length = after := by simpa using h
      obtain ⟨rest, hrest⟩ := List.isPrefixOf_iff_prefix.mp hstart
      rw [← hrest]
      simp
    · obtain ⟨⟨before', after'⟩, hcut, hsame⟩ := Option.map_eq_some_iff.mp h
      obtain ⟨rfl, rfl⟩ : c :: before' = before ∧ after' = after := by simpa using hsame
      rw [ih hcut]
      simp

theorem cut_eq_none_iff {hay : List Char} :
    cut needle hay = none ↔ ¬ needle <:+: hay := by
  induction hay with
  | nil => simp [cut]
  | cons c cs ih =>
    rw [List.infix_cons_iff, not_or, ← ih, cut]
    split
    · rename_i hstart
      simp [List.isPrefixOf_iff_prefix.mp hstart]
    · rename_i hstart
      have hnot : ¬ needle <+: c :: cs := fun hp => hstart (List.isPrefixOf_iff_prefix.mpr hp)
      simp [hnot]

theorem contains_iff {needle : String} {hay : List Char} :
    contains needle hay = true ↔ needle.toList <:+: hay := by
  rw [contains, Option.isSome_iff_ne_none, ne_eq, cut_eq_none_iff, not_not]

theorem not_infix_of_cut {hay : List Char} (hne : needle ≠ [])
    (h : cut needle hay = some (before, after)) : ¬ needle <:+: before := by
  induction hay generalizing before after with
  | nil =>
    rw [cut, if_neg hne] at h
    cases h
  | cons c cs ih =>
    simp only [cut] at h
    split at h
    · obtain ⟨rfl, -⟩ : [] = before ∧ _ := by simpa using h
      simpa using hne
    · rename_i hstart
      obtain ⟨⟨before', after'⟩, hcut, hsame⟩ := Option.map_eq_some_iff.mp h
      obtain ⟨rfl, rfl⟩ : c :: before' = before ∧ after' = after := by simpa using hsame
      rw [List.infix_cons_iff, not_or]
      refine ⟨fun hhere => hstart ?_, ih hcut⟩
      -- an occurrence at the front of what stands before is one at the front of the text
      have hlonger : c :: before' <+: c :: cs := by
        rw [cut_eq_some hcut, List.append_assoc]
        exact List.prefix_append (c :: before') _
      exact List.isPrefixOf_iff_prefix.mpr (hhere.trans hlonger)

theorem atBoundary_iff :
    atBoundary before = true ↔ before = [] ∨ ∃ init, before = init ++ ['&'] := by
  simp [atBoundary, List.getLast?_eq_some_iff]

/-! ### Pieces -/

theorem cons_intercalate (sep : Char) {parts : List (List Char)} (hne : parts ≠ []) :
    sep :: [sep].intercalate parts = (parts.map (sep :: ·)).flatten := by
  induction parts with
  | nil => exact absurd rfl hne
  | cons part parts ih =>
    cases parts with
    | nil => simp
    | cons next parts =>
      rw [List.map_cons, List.flatten_cons, ← ih (List.cons_ne_nil _ _), List.intercalate_cons_cons]
      simp

theorem cons_infix_of_mem_split {sep : Char} {part : String} (h : part ∈ split sep s) :
    sep :: part.toList <:+: sep :: s.toList := by
  obtain ⟨cs, hcs, rfl⟩ := List.mem_map.mp h
  have hjoin : [sep].intercalate (s.toList.splitOn sep) = s.toList := List.intercalate_splitOn sep
  have hne : s.toList.splitOn sep ≠ [] := List.ne_nil_of_mem hcs
  rw [← hjoin, cons_intercalate sep hne, String.toList_ofList]
  exact List.infix_of_mem_flatten (List.mem_map_of_mem hcs)

theorem infix_of_mem_split {sep : Char} {part : String} (h : part ∈ split sep s) :
    part.toList <:+: s.toList := by
  obtain ⟨before, after, hcons⟩ := cons_infix_of_mem_split h
  cases before with
  | nil => exact ⟨[], after, by simpa using hcons⟩
  | cons c before =>
    have htail : before ++ sep :: part.toList ++ after = s.toList := by
      simpa using congrArg List.tail hcons
    exact ⟨before ++ [sep], after, by simpa using htail⟩

/-! ### Parameters with a value -/

/-- The parameters of a form-encoded string that have a value. A piece without `=` has no name. -/
def assignments (s : String) : List (String × String) := (pieces s).filterMap (splitOnce '=')

def assigned (name s : String) : List String :=
  ((assignments s).filter fun pair => pair.1 = name).map Prod.snd

theorem assigned_of_pieces {left right : String} (h : pieces s = pieces left ++ pieces right) :
    assigned name s = assigned name left ++ assigned name right := by
  simp [assigned, assignments, h]

theorem mem_assigned {value : String} (h : value ∈ assigned name s) :
    formPiece (name, value) ∈ pieces s := by
  obtain ⟨⟨name', value'⟩, hpair, rfl⟩ := List.mem_map.mp h
  obtain ⟨hmem, hname⟩ := List.mem_filter.mp hpair
  obtain ⟨piece, hpiece, hsplit⟩ := List.mem_filterMap.mp hmem
  obtain ⟨rfl, -⟩ := formPiece_of_splitOnce hsplit
  obtain rfl : name' = name := by simpa using hname
  exact hpiece

theorem assigned_eq_nil (h : ¬ '&' :: (name ++ "=").toList <:+: '&' :: s.toList) :
    assigned name s = [] := by
  rw [List.eq_nil_iff_forall_not_mem]
  intro value hvalue
  refine h (List.IsInfix.trans ?_ (cons_infix_of_mem_split (mem_assigned hvalue)))
  exact ⟨[], value.toList, by simp [formPiece]⟩

theorem assigned_eq_nil_of_not_infix (h : ¬ (name ++ "=").toList <:+: s.toList) :
    assigned name s = [] := by
  rw [List.eq_nil_iff_forall_not_mem]
  intro value hvalue
  refine h (List.IsInfix.trans ?_ (infix_of_mem_split (mem_assigned hvalue)))
  exact ⟨[], value.toList, by simp [formPiece]⟩

theorem assigned_formPiece {value : String} (hname : '=' ∉ name.toList) (hamp : NoAmp name)
    (hvalue : NoAmp value) :
    assigned name (formPiece (name, value)) = [value] := by
  have hpiece : NoAmp (formPiece (name, value)) := by
    simp only [NoAmp, formPiece, String.toList_append, List.mem_append, not_or]
    exact ⟨⟨hamp, by simp⟩, hvalue⟩
  have hsplit : splitOnce '=' (formPiece (name, value)) = some (name, value) :=
    splitOnce_formPiece hname
  simp [assigned, assignments, pieces_of_noAmp hpiece, hsplit]

theorem assigned_append (hname : '=' ∉ name.toList) (hamp : NoAmp name)
    (hs : s.toList = (name ++ "=").toList ++ after)
    (hagain : contains ("&" ++ (name ++ "=")) (after.dropWhile (· ≠ '&')) = false) :
    assigned name s = [.ofList (after.takeWhile (· ≠ '&'))] := by
  set value : String := .ofList (after.takeWhile (· ≠ '&')) with hvalue
  have hnoAmp : NoAmp value := by
    rw [hvalue, NoAmp, String.toList_ofList]
    exact sep_notMem_takeWhile
  have hparts : s.toList = (formPiece (name, value)).toList ++ after.dropWhile (· ≠ '&') := by
    rw [hs, hvalue]
    simp [formPiece, List.takeWhile_append_dropWhile]
  cases hrest : after.dropWhile (· ≠ '&') with
  | nil =>
    rw [hrest, List.append_nil] at hparts
    rw [String.toList_inj.mp hparts]
    exact assigned_formPiece hname hamp hnoAmp
  | cons c rest =>
    -- what stops the value is a separator
    obtain rfl : c = '&' := by
      have hne : after.dropWhile (fun c => decide (c ≠ '&')) ≠ [] := by
        rw [hrest]
        exact List.cons_ne_nil c rest
      have hhead := List.head_dropWhile_not _ hne
      simp only [hrest, List.head_cons] at hhead
      simpa using hhead
    have hpieces : pieces s = pieces (formPiece (name, value)) ++ pieces (.ofList rest) :=
      split_append_cons '&' (by rw [hparts, hrest, String.toList_ofList])
    have hlater : assigned name (.ofList rest) = [] := by
      apply assigned_eq_nil
      rw [hrest, ← Bool.not_eq_true, contains_iff] at hagain
      simpa using hagain
    rw [assigned_of_pieces hpieces, hlater, assigned_formPiece hname hamp hnoAmp, List.append_nil]

theorem assigned_of_cut (hname : '=' ∉ name.toList) (hamp : NoAmp name)
    (hcut : cut (name ++ "=").toList s.toList = some (before, after))
    (hbound : atBoundary before = true)
    (hagain : contains ("&" ++ (name ++ "=")) (after.dropWhile (· ≠ '&')) = false) :
    assigned name s = [.ofList (after.takeWhile (· ≠ '&'))] := by
  have hs : s.toList = before ++ ((name ++ "=").toList ++ after) := by
    rw [cut_eq_some hcut, List.append_assoc]
  rcases atBoundary_iff.mp hbound with rfl | ⟨init, rfl⟩
  · exact assigned_append hname hamp (by simpa using hs) hagain
  · have hpieces : pieces s = pieces (.ofList init) ++
        pieces (.ofList ((name ++ "=").toList ++ after)) :=
      split_append_cons '&' (by simpa using hs)
    have hearlier : assigned name (.ofList init) = [] := by
      apply assigned_eq_nil_of_not_infix
      intro hinfix
      refine not_infix_of_cut (by simp) hcut (List.IsInfix.trans hinfix ?_)
      rw [String.toList_ofList]
      exact (List.prefix_append init ['&']).isInfix
    rw [assigned_of_pieces hpieces, hearlier, List.nil_append]
    exact assigned_append hname hamp (by simp) hagain

-- a longer name, a value and a piece without `=` are not taken for the parameter
example : assigned "signer" "signer=0x1&xsigner=0x2&note=signer=0x3&signer" = ["0x1"] := by decide

end Signer.Text
