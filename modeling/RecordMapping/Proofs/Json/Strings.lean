import Mathlib
import RecordMapping.Json.Printer
import RecordMapping.Json.Reader

namespace RecordMapping

namespace Json

lemma hexWord?_control :
    ∀ n < 32, hexWord? '0' '0' (hexDigit (n / 16)) (hexDigit (n % 16)) = some n := by decide

lemma hexDigit_not_control : ∀ n < 16, 0x20 ≤ (hexDigit n).toNat := by decide

variable {done rest : List Char} {c : Char}

lemma stringBody?_plain (hquote : c ≠ '"') (hslash : c ≠ '\\') (hplain : 0x20 ≤ c.toNat) :
    stringBody? done (c :: rest) = stringBody? (c :: done) rest := by
  simp [stringBody?, hslash, Nat.not_lt.mpr hplain]

lemma stringBody?_short {letter : Char} (h : shortEscape? letter = some c) :
    stringBody? done ('\\' :: letter :: rest) = stringBody? (c :: done) rest := by
  have hu : letter ≠ 'u' := by
    rintro rfl
    cases h
  simp [stringBody?, hu, h]

lemma stringBody?_unicode (hcontrol : c.toNat < 0x20) :
    stringBody? done (unicodeEscape c ++ rest) = stringBody? (c :: done) rest := by
  have hword := hexWord?_control c.toNat hcontrol
  have hlow : isLowSurrogate c.toNat = false := by
    simp [isLowSurrogate]
    omega
  have hhigh : isHighSurrogate c.toNat = false := by
    simp [isHighSurrogate]
    omega
  simp [unicodeEscape, stringBody?, hword, hlow, hhigh]

lemma stringBody?_escapeChar (c : Char) (done rest : List Char) :
    stringBody? done (escapeChar c ++ rest) = stringBody? (c :: done) rest := by
  unfold escapeChar
  split_ifs with hquote hslash hplain hbreak hreturn htab hback hfeed
  · exact stringBody?_short (by rw [hquote]; rfl)
  · exact stringBody?_short (by rw [hslash]; rfl)
  · exact stringBody?_plain hquote hslash hplain
  · exact stringBody?_short (by rw [hbreak]; rfl)
  · exact stringBody?_short (by rw [hreturn]; rfl)
  · exact stringBody?_short (by rw [htab]; rfl)
  · exact stringBody?_short (by rw [← Char.ofNat_toNat c, hback]; rfl)
  · exact stringBody?_short (by rw [← Char.ofNat_toNat c, hfeed]; rfl)
  · exact stringBody?_unicode (by omega)

theorem stringBody?_flatMap (text : List Char) (done rest : List Char) :
    stringBody? done (text.flatMap escapeChar ++ '"' :: rest) =
      some (String.ofList (done.reverse ++ text), rest) := by
  induction text generalizing done with
  | nil => simp [stringBody?]
  | cons c text ih =>
    rw [List.flatMap_cons, List.append_assoc, stringBody?_escapeChar, ih]
    simp

/-- A quoted string is read back after its opening quote. -/
theorem stringBody?_quoted (s : String) (rest : List Char) :
    ∃ body, quoted s ++ rest = '"' :: body ∧ stringBody? [] body = some (s, rest) :=
  ⟨s.toList.flatMap escapeChar ++ '"' :: rest, by simp [quoted],
    by simpa using stringBody?_flatMap s.toList [] rest⟩

lemma unicodeEscape_not_control (hcontrol : c.toNat < 0x20) :
    ∀ d ∈ unicodeEscape c, 0x20 ≤ d.toNat := by
  have hhigh := hexDigit_not_control (c.toNat / 16) (by omega)
  have hlow := hexDigit_not_control (c.toNat % 16) (by omega)
  simp [unicodeEscape, hhigh, hlow]

lemma escapeChar_not_control : ∀ d ∈ escapeChar c, 0x20 ≤ d.toNat := by
  unfold escapeChar
  split_ifs with hquote hslash hplain hbreak hreturn htab hback hfeed
  · simp
  · simp
  · simpa using hplain
  · simp
  · simp
  · simp
  · simp
  · simp
  · exact unicodeEscape_not_control (by omega)

lemma quoted_not_control (s : String) : ∀ c ∈ quoted s, 0x20 ≤ c.toNat := by
  intro c hc
  simp only [quoted, List.mem_cons, List.mem_append, List.mem_flatMap, List.not_mem_nil,
    or_false] at hc
  obtain rfl | ⟨d, -, hc⟩ | rfl := hc
  · decide
  · exact escapeChar_not_control c hc
  · decide

end Json

end RecordMapping
