import RecordMapping.CommandLine.Documents
import RecordMapping.CommandLine.Report
import RecordMapping.Proofs.Files.Frames
import RecordMapping.Proofs.Json.Legible
import RecordMapping.Proofs.Store.Texts

/-!
# Reading what was written

Commands print documents as rows, and read documents from files that hold rows or one value. A text
of rows is tried as one value first, so the main point is that it never is one, unless it has one
document. Main statement: the documents of rows among blank rows and the items of a list are read
back in order.
-/

namespace RecordMapping

variable {documents items : List Json} {rows : List String} {fuel depth : Nat}

/-- Objects in order, each as a row of its own, among any number of blank rows. -/
inductive Spread : List Json → List String → Prop where
  | nil : Spread [] []
  | blank {objects : List Json} {rows : List String} {row : String} (blank : isAllBlank row.toList)
      (line : '\n' ∉ row.toList) (h : Spread objects rows) : Spread objects (row :: rows)
  | object {objects : List Json} {rows : List String} {object : Json}
      (isObject : object.kind = .object) (h : Spread objects rows) :
      Spread (object :: objects) (object.toText :: rows)

def rowsText (rows : List String) : List Char := (rows.map String.toList).flatMap (· ++ ['\n'])

lemma toList_outputText (report : Report) :
    report.outputText.toList = rowsText report.output := by
  simp [Report.outputText, rowsText, List.flatMap_map]

lemma rowsText_cons (row : String) (rows : List String) :
    rowsText (row :: rows) = row.toList ++ '\n' :: rowsText rows := by
  simp [rowsText]

namespace Spread

lemma kind_of_mem (h : Spread documents rows) :
    ∀ document ∈ documents, document.kind = .object := by
  induction h with
  | nil => simp
  | blank blank line h ih => exact ih
  | object isObject h ih => exact List.forall_mem_cons.mpr ⟨isObject, ih⟩

lemma no_break (h : Spread documents rows) : ∀ row ∈ rows.map String.toList, '\n' ∉ row := by
  induction h with
  | nil => simp
  | blank blank line h ih => exact List.forall_mem_cons.mpr ⟨line, ih⟩
  | @object objects rows object isObject h ih =>
    refine List.forall_mem_cons.mpr ⟨?_, ih⟩
    have hplain := not_mem_compact (c := '\n') (by decide) [object]
    simpa [Json.toText] using hplain

lemma readLines_rows (h : Spread documents rows)
    (hread : ∀ document ∈ documents, Json.Legible (Json.depthLimit - 1) document) (number : Nat) :
    readLines number ((rows.map String.toList).map dropReturn) = .ok documents := by
  induction h generalizing number with
  | nil => rfl
  | @blank objects rows row blank line h ih =>
    have hblank : isAllBlank (dropReturn row.toList) := by
      unfold dropReturn
      split
      · exact List.all_eq_true.mpr fun c hc =>
          List.all_eq_true.mp blank c (List.mem_of_mem_dropLast hc)
      · exact blank
    simp only [List.map_cons, readLines, hblank, if_true, ih hread]
  | @object objects rows object isObject h ih =>
    obtain ⟨hobject, hothers⟩ := List.forall_mem_cons.mp hread
    have hplain := not_mem_compact (c := '\r') (by decide) [object]
    have hkept : dropReturn object.toText.toList = object.compact := by
      rw [Json.toText, String.toList_ofList]
      exact dropReturn_of_not_mem (hplain _ (by simp))
    simp only [List.map_cons, readLines, hkept, hobject.compact_not_blank,
      Json.read?_compact_iff.mpr hobject, ih hothers, Bool.false_eq_true, if_false]

end Spread

/-- No value starts with a blank that is none of the blanks between tokens. -/
lemma Json.value?_of_isBlank {c : Char} (hblank : isBlank c) (hspace : Json.isSpace c = false)
    (rest : List Char) : Json.value? fuel depth (c :: rest) = none := by
  have hopening : c ∉ Json.opening := by
    intro hmem
    simp only [Json.opening, List.mem_cons, List.not_mem_nil, or_false] at hmem
    obtain rfl | rfl | rfl | rfl | rfl | rfl := hmem <;> cases hblank
  have hnumeral : isNumeralChar c = false := by
    by_contra hnumeral
    simp [Json.isBlank_of_isNumeralChar (by simpa using hnumeral)] at hblank
  simp only [isNumeralChar, Bool.or_eq_false_iff, beq_eq_false_iff_ne] at hnumeral
  have hliteral : Literal.read? (c :: rest) = none := by
    have hminus : (c :: rest).head? ≠ some '-' := by simpa using hnumeral.1.1.1.2
    simp [Literal.read?_of_head hminus, Literal.unsigned?, splitDigits, hnumeral.1.1.1.1]
  cases fuel with
  | zero => rfl
  | succ fuel =>
    rw [Json.value?_literal hspace hopening, hliteral]
    rfl

lemma Json.value?_blanks {blanks : List Char} (hblanks : ∀ c ∈ blanks, isBlank c)
    (text : List Char) :
    (∀ c ∈ blanks, Json.isSpace c) ∨ Json.value? fuel depth (blanks ++ text) = none := by
  induction blanks with
  | nil => exact .inl (by simp)
  | cons c others ih =>
    obtain ⟨hc, hothers⟩ := List.forall_mem_cons.mp hblanks
    cases hspace : Json.isSpace c with
    | false => exact .inr (Json.value?_of_isBlank hc hspace _)
    | true =>
      obtain hspaces | hnone := ih hothers
      · exact .inl (List.forall_mem_cons.mpr ⟨hspace, hspaces⟩)
      · have hskip := @Json.value?_append [c] (by simpa using hspace) fuel depth (others ++ text)
        exact .inr (hskip.trans hnone)

lemma Spread.head_mem {document : Json} (h : Spread (document :: documents) rows) :
    '{' ∈ rowsText rows := by
  generalize hdocuments : document :: documents = all at h
  induction h with
  | nil => cases hdocuments
  | @blank objects rows row blank line h ih =>
    rw [rowsText_cons]
    exact List.mem_append_right _ (List.mem_cons_of_mem _ (ih hdocuments))
  | @object objects rows object isObject h ih =>
    rw [rowsText_cons, Json.toText, String.toList_ofList]
    cases object with
    | object members => exact List.mem_append_left _ (by simp [Json.compact])
    | _ => cases isObject

/-- A text of rows is one value only if it has one document: what follows the first document, which
is read to the end of its text, has the brace of the next one. -/
lemma Spread.value?_rows (h : Spread documents rows)
    (hread : ∀ document ∈ documents, Json.Legible (Json.depthLimit - 1) document)
    {value : Json} {rest : List Char} (hfuel : 2 * (rowsText rows).length < fuel)
    (hvalue : Json.value? fuel Json.depthLimit (rowsText rows) = some (value, rest))
    (hrest : ∀ c ∈ rest, Json.isSpace c) : documents = [value] := by
  induction h with
  | nil =>
    cases fuel with
    | zero => cases hvalue
    | succ fuel => simp [rowsText, Json.value?, Json.skipSpace] at hvalue
  | @blank objects rows row blank line h ih =>
    rw [rowsText_cons] at hvalue hfuel
    obtain hspaces | hnone := @Json.value?_blanks fuel Json.depthLimit row.toList
      (List.all_eq_true.mp blank) ('\n' :: rowsText rows)
    · have hbreak : ∀ c ∈ ['\n'], Json.isSpace c := by simp [Json.isSpace]
      rw [Json.value?_append hspaces, ← List.singleton_append, Json.value?_append hbreak] at hvalue
      refine ih hread ?_ hvalue
      simp only [List.length_append, List.length_cons] at hfuel
      omega
    · rw [hnone] at hvalue
      cases hvalue
  | @object objects rows object isObject h ih =>
    obtain ⟨hobject, hothers⟩ := List.forall_mem_cons.mp hread
    have hback := Json.Layout.dense.readsBack hobject (by decide : _ < Json.depthLimit) 0 fuel
      ('\n' :: rowsText rows)
      (endsLiteral_cons (by decide) (by decide) (by decide) (by decide) _)
    rw [rowsText_cons, Json.toText, String.toList_ofList] at hvalue hfuel
    rw [Json.Layout.text_dense] at hback
    obtain ⟨rfl, rfl⟩ := Prod.mk.inj (Option.some.inj ((hback hfuel).symm.trans hvalue))
    cases objects with
    | nil => rfl
    | cons next objects =>
      have hbrace := hrest '{' (List.mem_cons_of_mem _ h.head_mem)
      cases hbrace

lemma documentsOf_rows (h : Spread documents rows)
    (hread : ∀ document ∈ documents, Json.Legible (Json.depthLimit - 1) document) :
    documentsOf (rowsText rows) = .ok documents := by
  cases hvalue : Json.read? (rowsText rows) with
  | none =>
    have hlines : lines (rowsText rows) = (rows.map String.toList).map dropReturn :=
      lines_flatMap h.no_break
    simp only [documentsOf, hvalue, hlines, h.readLines_rows hread]
  | some value =>
    have hone : documents = [value] := by
      simp only [Json.read?, Option.bind_eq_bind, Option.bind_eq_some_iff] at hvalue
      obtain ⟨⟨found, rest⟩, hfound, hvalue⟩ := hvalue
      dsimp only at hvalue
      split at hvalue
      · rename_i hskip
        obtain rfl := Option.some.inj hvalue
        refine h.value?_rows hread (by omega) hfound ?_
        simpa [Json.skipSpace, List.isEmpty_iff, List.dropWhile_eq_nil_iff] using hskip
      · cases hvalue
    obtain rfl := hone
    have hkind := h.kind_of_mem value (by simp)
    cases value with
    | object members => simp only [documentsOf, hvalue]
    | _ => cases hkind

lemma documentsOf_list (layout : Json.Layout) {blanks : List Char}
    (hlist : Json.Legible (Json.depthLimit - 1) (.list items))
    (hblanks : ∀ c ∈ blanks, Json.isSpace c) :
    documentsOf (layout.text 0 (.list items) ++ blanks) = .ok items := by
  simp only [documentsOf, (Json.read?_text_iff layout hblanks).mpr hlist]

lemma readDocuments_of_documentsOf {tree : FileTree} {path text : String}
    (hread : tree.read ⟨path⟩ = .ok text) (h : documentsOf text.toList = .ok documents) :
    readDocuments tree path = .ok documents := by
  simp only [readDocuments, hread, h]

/-- Objects that are printed as rows, among any number of blank rows, are read back in order, and so
are the items of a list from its compact and from its pretty text, if each of these values is read
back from its compact text. -/
theorem readDocuments_written {tree : FileTree} {path text : String}
    (hread : tree.read ⟨path⟩ = .ok text) :
    (∀ (objects : List Json) (rows : List String), Spread objects rows →
      (∀ object ∈ objects, Json.ofText? object.toText = some object) →
      text = (Report.done rows []).outputText → readDocuments tree path = .ok objects) ∧
    ∀ (items : List Json) (blanks : List Char),
      Json.ofText? (Json.list items).toText = some (.list items) →
      (∀ c ∈ blanks, Json.isSpace c) →
      (text.toList = (Json.list items).compact ++ blanks ∨
        text.toList = (Json.list items).pretty ++ blanks) →
        readDocuments tree path = .ok items := by
  have hlegible {value : Json} (h : Json.ofText? value.toText = some value) :
      Json.Legible (Json.depthLimit - 1) value := by
    rw [Json.ofText?, Json.toText, String.toList_ofList] at h
    exact Json.read?_compact_iff.mp h
  constructor
  · intro objects rows hrows hobjects htext
    apply readDocuments_of_documentsOf hread
    rw [htext, toList_outputText]
    exact documentsOf_rows hrows fun object hmem => hlegible (hobjects object hmem)
  · intro items blanks hitems hblanks htext
    apply readDocuments_of_documentsOf hread
    obtain htext | htext := htext
    · rw [htext, ← Json.Layout.text_dense 0]
      exact documentsOf_list .dense (hlegible hitems) hblanks
    · rw [htext, Json.pretty, ← Json.Layout.text_airy]
      exact documentsOf_list .airy (hlegible hitems) hblanks

namespace Written

def ada : Json := .object [("id", .string "ada"), ("age", .number (.ofInt 36))]

def bea : Json := .object [("id", .string "b\na"), ("tags", .list [])]

/-- Two objects among blank rows, one of which is no blank of a value. -/
def writtenRows : List String := ["", ada.toText, "\u2028", " \t", bea.toText]

/-- The two objects as rows and as a list. -/
def written : FileTree where
  start := []
  entries := [(⟨"/rows.jsonl"⟩, .file (Report.done writtenRows []).outputText),
    (⟨"/list.json"⟩, .file (String.ofList ((Json.list [ada, bea]).pretty ++ ['\n'])))]

theorem readDocuments_written_people :
    written.read ⟨"rows.jsonl"⟩ = .ok (Report.done writtenRows []).outputText ∧
    Spread [ada, bea] writtenRows ∧
    readDocuments written "rows.jsonl" = .ok [ada, bea] ∧
    readDocuments written "list.json" = .ok [ada, bea] := by
  have hrows : written.read ⟨"rows.jsonl"⟩ = .ok (Report.done writtenRows []).outputText := by
    rw [FileTree.read, FileTree.look,
      FileTree.locate_relative (by decide) (by decide) (by decide) (by decide)]
    rfl
  have hlist : written.read ⟨"list.json"⟩ =
      .ok (String.ofList ((Json.list [ada, bea]).pretty ++ ['\n'])) := by
    rw [FileTree.read, FileTree.look,
      FileTree.locate_relative (by decide) (by decide) (by decide) (by decide)]
    rfl
  have hspread : Spread [ada, bea] writtenRows :=
    .blank (by decide) (by decide) <| .object rfl <| .blank (by decide) (by decide) <|
      .blank (by decide) (by decide) <| .object rfl .nil
  have hada : Json.ofText? ada.toText = some ada := by cbv
  have hbea : Json.ofText? bea.toText = some bea := by cbv
  have hboth : Json.ofText? (Json.list [ada, bea]).toText = some (.list [ada, bea]) := by cbv
  refine ⟨hrows, hspread, ?_, ?_⟩
  · exact (readDocuments_written hrows).1 [ada, bea] writtenRows hspread (by simp [hada, hbea]) rfl
  · exact (readDocuments_written hlist).2 [ada, bea] ['\n'] hboth (by simp [Json.isSpace])
      (.inr String.toList_ofList)

end Written

end RecordMapping
