import RecordMapping.Proofs.Json.ReadBack
import RecordMapping.Proofs.Text.Lines
import RecordMapping.Store.Format

namespace RecordMapping

variable {number : Nat} {records : List Json}

lemma Json.Legible.compact_not_blank {levels : Nat} {record : Json} (h : record.Legible levels) :
    isAllBlank record.compact = false := by
  obtain ⟨c, rest, htext, hstarts⟩ := Json.Layout.dense.text_starts 0 record
    fun n hn => (h.number (hn ▸ .here)).text_ne_nil
  rw [Json.Layout.text_dense] at htext
  simp [isAllBlank, htext, hstarts.not_blank]

lemma not_mem_compact {c : Char} (hc : c.toNat < 0x20) (records : List Json) :
    ∀ line ∈ records.map Json.compact, c ∉ line := by
  intro line hline hmem
  obtain ⟨record, -, rfl⟩ := List.mem_map.mp hline
  have hplain := Json.compact_not_control record c hmem
  omega

lemma readLines_compact (h : ∀ record ∈ records, Json.Legible (Json.depthLimit - 1) record) :
    readLines number (records.map Json.compact) = .ok records := by
  induction records generalizing number with
  | nil => rfl
  | cons record others ih =>
    have hrecord := h record List.mem_cons_self
    have hread : Json.read? record.compact = some record :=
      Json.read?_compact hrecord (by decide)
    have hothers : readLines (number + 1) (others.map Json.compact) = .ok others :=
      ih fun other hmem => h other (List.mem_cons_of_mem _ hmem)
    simp [readLines, hrecord.compact_not_blank, hread, hothers]

lemma formed_of_readLines {texts : List (List Char)} (h : readLines number texts = .ok records) :
    ∀ record ∈ records, Json.Formed (Json.depthLimit - 1) record := by
  induction texts generalizing number records with
  | nil =>
    cases h
    simp
  | cons text others ih =>
    rw [readLines] at h
    split_ifs at h
    · exact ih h
    · split at h
      · cases h
      · rename_i record hread
        split at h
        · rename_i rest hrest
          cases h
          exact List.forall_mem_cons.mpr ⟨Json.formed_of_read? hread, ih hrest⟩
        · cases h

namespace RecordFormat

/-- How many levels a record in a file may have. In a list a record is nested once more. -/
def levels : RecordFormat → Nat
  | .list => Json.depthLimit - 2
  | .lines => Json.depthLimit - 1

variable {format : RecordFormat} {text : List Char}

lemma read_write_list (h : ∀ record ∈ records, Json.Legible (levels .list) record) :
    RecordFormat.list.read (RecordFormat.list.write records) = .ok records := by
  have hblank : isAllBlank ((Json.list records).pretty ++ ['\n']) = false := by
    obtain ⟨c, rest, htext, hstarts⟩ := Json.Layout.airy.text_starts 0 (.list records)
      fun n hn => by cases hn
    rw [Json.Layout.text_airy] at htext
    simp [isAllBlank, Json.pretty, htext, hstarts.not_blank]
  have hread := Json.read?_pretty (Json.Legible.list h) (by decide)
  simp [read, write, hblank, hread]

lemma read_write_lines (h : ∀ record ∈ records, Json.Legible (levels .lines) record) :
    RecordFormat.lines.read (RecordFormat.lines.write records) = .ok records := by
  cases records with
  | nil => rfl
  | cons record others =>
    have hlines := lines_joinPieces (by simp)
      (not_mem_compact (c := '\n') (by decide) (record :: others))
      (not_mem_compact (c := '\r') (by decide) (record :: others))
    simp only [read, write, hlines, readLines_compact h]

/-- Legible records are read back from what is written for them. -/
theorem read_write (h : ∀ record ∈ records, Json.Legible format.levels record) :
    format.read (format.write records) = .ok records := by
  cases format with
  | list => exact read_write_list h
  | lines => exact read_write_lines h

theorem formed_of_read (h : format.read text = .ok records) :
    ∀ record ∈ records, Json.Formed format.levels record := by
  cases format with
  | list =>
    simp only [read] at h
    split_ifs at h
    · cases h
      simp
    · split at h
      · cases h
      · rename_i found hread
        cases h
        cases Json.formed_of_read? hread with
        | scalar hscalar => cases hscalar
        | list hitems => exact hitems
      · cases h
  | lines =>
    simp only [read] at h
    split at h
    · rename_i found hread
      cases h
      exact formed_of_readLines hread
    · cases h

end RecordFormat

end RecordMapping
