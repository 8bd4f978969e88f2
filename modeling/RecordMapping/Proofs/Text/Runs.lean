import Mathlib.Data.List.Basic
import Mathlib.Data.List.TakeWhile
import RecordMapping.Text.Blank

namespace RecordMapping

variable {p : Char → Bool} {c : Char} {text run run' rest rest' : List Char}

lemma takeWhile_append_of_head (h : ∀ c ∈ rest.head?, p c = false) (text : List Char) :
    (text ++ rest).takeWhile p = text.takeWhile p ∧
      (text ++ rest).dropWhile p = text.dropWhile p ++ rest := by
  induction text with
  | nil =>
    cases rest with
    | nil => exact ⟨rfl, rfl⟩
    | cons c rest => simp [h c rfl]
  | cons c text ih =>
    cases hc : p c with
    | false => simp [hc]
    | true => simp [hc, ih]

lemma takeWhile_append_of_run (hrun : ∀ c ∈ run, p c) (h : ∀ c ∈ rest.head?, p c = false) :
    (run ++ rest).takeWhile p = run ∧ (run ++ rest).dropWhile p = rest := by
  obtain ⟨htake, hdrop⟩ := takeWhile_append_of_head h run
  rw [htake, hdrop, List.takeWhile_eq_self_iff.mpr hrun, List.dropWhile_eq_nil_iff.mpr hrun]
  exact ⟨rfl, List.nil_append rest⟩

lemma eq_of_append_eq (hrun : ∀ c ∈ run, p c) (hrun' : ∀ c ∈ run', p c)
    (hrest : ∀ c ∈ rest.head?, p c = false) (hrest' : ∀ c ∈ rest'.head?, p c = false)
    (h : run ++ rest = run' ++ rest') : run = run' ∧ rest = rest' := by
  obtain ⟨htake, hdrop⟩ := takeWhile_append_of_run hrun hrest
  obtain ⟨htake', hdrop'⟩ := takeWhile_append_of_run hrun' hrest'
  rw [h] at htake hdrop
  exact ⟨htake.symm.trans htake', hdrop.symm.trans hdrop'⟩

lemma forall_head?_append {P : Char → Prop} (hne : text ≠ []) (h : ∀ c ∈ text, P c)
    (rest : List Char) : ∀ c ∈ (text ++ rest).head?, P c := by
  intro c hc
  rw [List.head?_append_of_ne_nil _ hne] at hc
  exact h c (List.mem_of_mem_head? hc)

lemma takeWhile_append_of_not_mem (h : c ∉ text) (rest : List Char) :
    (text ++ c :: rest).takeWhile (· ≠ c) = text ∧
      (text ++ c :: rest).dropWhile (· ≠ c) = c :: rest := by
  apply takeWhile_append_of_run
  · intro d hd
    exact decide_eq_true fun hsame => h (hsame ▸ hd)
  · simp

lemma eq_takeWhile_append {d : Char} (h : text.dropWhile (· ≠ c) = d :: rest) :
    text = text.takeWhile (· ≠ c) ++ c :: rest := by
  have hsplit := List.takeWhile_append_dropWhile (p := (· ≠ c)) (l := text)
  have hnot := List.head?_dropWhile_not (· ≠ c) text
  rw [h] at hsplit hnot
  obtain rfl : d = c := by simpa using hnot
  exact hsplit.symm

lemma not_mem_takeWhile_ne (c : Char) (text : List Char) : c ∉ text.takeWhile (· ≠ c) := by
  intro hmem
  simpa using List.mem_takeWhile_imp hmem

lemma exists_blanks_trim (text : List Char) :
    ∃ before after, isAllBlank before ∧ isAllBlank after ∧
      text = before ++ (trim text ++ after) := by
  refine ⟨text.takeWhile isBlank, ((text.dropWhile isBlank).reverse.takeWhile isBlank).reverse,
    List.all_takeWhile, ?_, ?_⟩
  · rw [isAllBlank, List.all_reverse]
    exact List.all_takeWhile
  · rw [trim, trimEnd, ← List.reverse_append, List.takeWhile_append_dropWhile,
      List.reverse_reverse, List.takeWhile_append_dropWhile]

lemma trim_blanks {before core after : List Char} (hbefore : isAllBlank before)
    (hafter : isAllBlank after) (hne : core ≠ []) (hcore : ∀ c ∈ core, isBlank c = false) :
    trim (before ++ (core ++ after)) = core := by
  have hlast : ∀ c ∈ core.reverse.head?, isBlank c = false := by
    intro c hc
    exact hcore c (List.mem_reverse.mp (List.mem_of_mem_head? hc))
  have hreverse : ∀ c ∈ after.reverse, isBlank c := by
    simpa using List.all_eq_true.mp hafter
  rw [trim, trimEnd, (takeWhile_append_of_run (List.all_eq_true.mp hbefore)
    (forall_head?_append hne hcore after)).2, List.reverse_append,
    (takeWhile_append_of_run hreverse hlast).2, List.reverse_reverse]

lemma trim_of_forall (h : ∀ c ∈ text, isBlank c = false) : trim text = text := by
  by_cases hne : text = []
  · subst hne
    rfl
  · have htrim : trim ([] ++ (text ++ [])) = text := trim_blanks rfl rfl hne h
    simpa using htrim

lemma trim_of_ends (hfirst : ∀ c ∈ text.head?, isBlank c = false)
    (hlast : ∀ c ∈ text.getLast?, isBlank c = false) : trim text = text := by
  have hdrop {text : List Char} (h : ∀ c ∈ text.head?, isBlank c = false) :
      text.dropWhile isBlank = text := by
    cases text with
    | nil => rfl
    | cons c rest => exact List.dropWhile_cons_of_neg (by simp [h c rfl])
  rw [trim, trimEnd, hdrop hfirst, hdrop (by rwa [List.head?_reverse]), List.reverse_reverse]

end RecordMapping
