import Mathlib.Data.List.Basic
import RecordMapping.Text.Pieces

namespace RecordMapping

variable {separator : Char}

lemma pieces_append {piece : List Char} (h : separator ∉ piece) (rest : List Char) :
    pieces separator (piece ++ separator :: rest) = piece :: pieces separator rest := by
  induction piece with
  | nil => simp [pieces]
  | cons c piece ih =>
    obtain ⟨hne, hpiece⟩ := not_or.mp (mt List.mem_cons.mpr h)
    simp [pieces, Ne.symm hne, ih hpiece]

lemma pieces_flatMap {texts : List (List Char)} (h : ∀ text ∈ texts, separator ∉ text) :
    pieces separator (texts.flatMap (· ++ [separator])) = texts ++ [[]] := by
  induction texts with
  | nil => rfl
  | cons text others ih =>
    obtain ⟨htext, hothers⟩ := List.forall_mem_cons.mp h
    rw [List.flatMap_cons, List.append_assoc, List.singleton_append, pieces_append htext,
      ih hothers, List.cons_append]

lemma joinPieces_append {texts : List (List Char)} (hne : texts ≠ []) :
    joinPieces [separator] texts ++ [separator] = texts.flatMap (· ++ [separator]) := by
  induction texts with
  | nil => exact absurd rfl hne
  | cons text others ih =>
    cases others with
    | nil => simp [joinPieces]
    | cons next others =>
      rw [List.flatMap_cons, ← ih (List.cons_ne_nil next others)]
      simp [joinPieces]

lemma pieces_ne_nil (separator : Char) (text : List Char) : pieces separator text ≠ [] := by
  cases text with
  | nil => simp [pieces]
  | cons c rest =>
    simp only [pieces]
    split
    · simp
    · split <;> simp

lemma pieces_append_pieces (text rest : List Char) :
    pieces separator (text ++ separator :: rest) = pieces separator text ++ pieces separator rest := by
  induction text with
  | nil => simp [pieces]
  | cons c text ih =>
    obtain ⟨piece, others, hpieces⟩ := List.exists_cons_of_ne_nil (pieces_ne_nil separator text)
    rw [List.cons_append, pieces, pieces, ih, hpieces]
    split <;> rfl

lemma joinPieces_pieces (separator : Char) (text : List Char) :
    joinPieces [separator] (pieces separator text) = text := by
  induction text with
  | nil => rfl
  | cons c rest ih =>
    obtain ⟨piece, others, hpieces⟩ := List.exists_cons_of_ne_nil (pieces_ne_nil separator rest)
    rw [hpieces] at ih
    simp only [pieces, hpieces]
    split
    · rename_i hc
      rw [hc, ← ih]
      rfl
    · rw [← ih]
      cases others with
      | nil => rfl
      | cons other others => rfl

lemma pieces_of_not_mem {piece : List Char} (h : separator ∉ piece) :
    pieces separator piece = [piece] := by
  induction piece with
  | nil => rfl
  | cons c piece ih =>
    obtain ⟨hne, hpiece⟩ := not_or.mp (mt List.mem_cons.mpr h)
    simp [pieces, Ne.symm hne, ih hpiece]

lemma pieces_intercalate {texts : List (List Char)} (hne : texts ≠ [])
    (h : ∀ text ∈ texts, separator ∉ text) :
    pieces separator ([separator].intercalate texts) = texts := by
  induction texts with
  | nil => exact absurd rfl hne
  | cons text others ih =>
    obtain ⟨htext, hothers⟩ := List.forall_mem_cons.mp h
    cases others with
    | nil => rw [List.intercalate_singleton, pieces_of_not_mem htext]
    | cons next others =>
      rw [List.intercalate_cons_cons, List.append_assoc, List.singleton_append,
        pieces_append htext, ih (by simp) hothers]

lemma joinPieces_eq_intercalate (separator : List Char) (texts : List (List Char)) :
    joinPieces separator texts = separator.intercalate texts := by
  induction texts with
  | nil => rfl
  | cons text rest ih =>
    cases rest with
    | nil => simp [joinPieces]
    | cons next rest =>
      rw [List.intercalate_cons_cons, ← ih]
      rfl

lemma not_mem_of_mem_pieces {text piece : List Char} (h : piece ∈ pieces separator text) :
    separator ∉ piece := by
  induction text generalizing piece with
  | nil =>
    obtain rfl := List.mem_singleton.mp h
    exact List.not_mem_nil
  | cons c rest ih =>
    obtain ⟨first, others, hpieces⟩ := List.exists_cons_of_ne_nil (pieces_ne_nil separator rest)
    simp only [pieces, hpieces] at h ih
    split at h
    · obtain rfl | hmem := List.mem_cons.mp h
      · exact List.not_mem_nil
      · exact ih hmem
    · rename_i hne
      obtain rfl | hmem := List.mem_cons.mp h
      · exact List.not_mem_cons_of_ne_of_not_mem (Ne.symm hne) (ih List.mem_cons_self)
      · exact ih (List.mem_cons_of_mem first hmem)

lemma mem_joinPieces {glue text : List Char} {texts : List (List Char)} (h : text ∈ texts)
    {c : Char} (hc : c ∈ text) : c ∈ joinPieces glue texts := by
  induction texts with
  | nil => cases h
  | cons first rest ih =>
    cases rest with
    | nil =>
      obtain rfl := List.mem_singleton.mp h
      exact hc
    | cons next rest =>
      rw [joinPieces, List.mem_append]
      · obtain rfl | hmem := List.mem_cons.mp h
        · exact .inl (List.mem_append_left _ hc)
        · exact .inr (ih hmem)
      · exact List.cons_ne_nil next rest

theorem lines_flatMap {texts : List (List Char)} (hbreak : ∀ text ∈ texts, '\n' ∉ text) :
    lines (texts.flatMap (· ++ ['\n'])) = texts.map dropReturn := by
  rw [lines, pieces_flatMap hbreak]
  simp

lemma dropReturn_of_not_mem {text : List Char} (h : '\r' ∉ text) : dropReturn text = text := by
  have hlast : text.getLast? ≠ some '\r' := fun hlast => h (List.mem_of_getLast? hlast)
  simp [dropReturn, hlast]

/-- Joined lines are cut where they were joined. -/
theorem lines_joinPieces {texts : List (List Char)} (hne : texts ≠ [])
    (hbreak : ∀ text ∈ texts, '\n' ∉ text) (hreturn : ∀ text ∈ texts, '\r' ∉ text) :
    lines (joinPieces ['\n'] texts ++ ['\n']) = texts := by
  have hkept : texts.map dropReturn = texts :=
    (List.map_congr_left fun text hmem => dropReturn_of_not_mem (hreturn text hmem)).trans
      (List.map_id texts)
  rw [joinPieces_append hne, lines_flatMap hbreak, hkept]

end RecordMapping
