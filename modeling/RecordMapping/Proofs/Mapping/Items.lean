import RecordMapping.Proofs.JsonPath.Items
import RecordMapping.Proofs.Mapping.Creation
import RecordMapping.Proofs.Mapping.Extraction

/-!
# Items of a list and their deltas

A path query that goes through the items of a list gives no value for an item without the member,
so the values after it move up. Main statement: the value that a delta holds under a property comes
from the item before which as many items have the member as the position of the delta says. The
values of two properties come from the same items if after an item with only one of the two members
no item has the other one, and, where all values are kept, only then.
-/

namespace RecordMapping

section LiningUp

variable {α : Type} {p q : α → Bool} {items : List α} {a : α}

/-- Items that come first, second and so on with respect to two properties are the same. -/
def LinesUp (p q : α → Bool) (items : List α) : Prop :=
  ∀ j k a b, items[j]? = some a → p a → items[k]? = some b → q b →
    (items.take j).countP p = (items.take k).countP q → j = k

/-- After an item with just the first of two properties none has the second. -/
def NoneAfter (p q : α → Bool) (items : List α) : Prop :=
  items.Pairwise fun earlier later => p earlier → q earlier = false → q later = false

lemma LinesUp.symm (h : LinesUp p q items) : LinesUp q p items :=
  fun j k a b ha hqa hb hpb hcount => (h k j b a hb hpb ha hqa hcount.symm).symm

lemma linesUp_cons_of_eq (h : p a = q a) : LinesUp p q (a :: items) ↔ LinesUp p q items := by
  constructor
  · intro hall j k b c hb hpb hc hqc hcount
    have hnext := hall (j + 1) (k + 1) b c (by simpa using hb) hpb (by simpa using hc) hqc
      (by simp [List.countP_cons, hcount, h])
    omega
  · intro hrest j k b c hb hpb hc hqc hcount
    cases j with
    | zero =>
      obtain rfl : a = b := by simpa using hb
      cases k with
      | zero => rfl
      | succ k => simp [← h, hpb] at hcount
    | succ j =>
      cases k with
      | zero =>
        obtain rfl : a = c := by simpa using hc
        simp [h, hqc] at hcount
      | succ k =>
        have hsame := hrest j k b c (by simpa using hb) hpb (by simpa using hc) hqc
          (by simpa [List.countP_cons, h] using hcount)
        omega

lemma exists_first {b : α} (hb : b ∈ items) (hq : q b) :
    ∃ k c, items[k]? = some c ∧ q c ∧ (items.take k).countP q = 0 := by
  have hlt : items.findIdx q < items.length := List.findIdx_lt_length_of_exists ⟨b, hb, hq⟩
  refine ⟨_, _, List.getElem?_eq_getElem hlt, List.findIdx_getElem, List.countP_eq_zero.mpr ?_⟩
  intro c hc
  obtain ⟨k, hk, rfl⟩ := List.mem_take_iff_getElem.mp hc
  simpa using List.not_of_lt_findIdx (by omega : k < items.findIdx q)

/-- After a first item with just one property no other item may have the other property. -/
lemma linesUp_cons_of_left (hp : p a) (hq : q a = false) :
    LinesUp p q (a :: items) ↔ ∀ b ∈ items, q b = false := by
  constructor
  · intro hall b hb
    by_contra hqb
    obtain ⟨k, c, hc, hqc, hcount⟩ := exists_first hb (by simpa using hqb)
    have hzero := hall 0 (k + 1) a c rfl hp (by simpa using hc) hqc
      (by simp [hq, hcount])
    cases hzero
  · intro hnone j k b c _ _ hc hqc _
    obtain rfl | hmem := List.mem_cons.mp (List.mem_of_getElem? hc)
    · rw [hq] at hqc
      cases hqc
    · rw [hnone c hmem] at hqc
      cases hqc

lemma noneAfter_cons : NoneAfter p q (a :: items) ↔
    (p a → q a = false → ∀ b ∈ items, q b = false) ∧ NoneAfter p q items := by
  rw [NoneAfter, List.pairwise_cons]
  exact and_congr_left' ⟨fun h hp hq b hb => h b hb hp hq, fun h b hb hp hq => h hp hq b hb⟩

lemma noneAfter_of_none (h : ∀ b ∈ items, q b = false) :
    NoneAfter p q items ∧ NoneAfter q p items := by
  constructor
  · exact List.pairwise_of_forall_mem_list fun _ _ b hb _ _ => h b hb
  · refine List.pairwise_of_forall_mem_list fun b hb _ _ hqb _ => ?_
    rw [h b hb] at hqb
    cases hqb

lemma linesUp_cons_iff (hp : p a) (hq : q a = false) :
    LinesUp p q (a :: items) ↔ NoneAfter p q (a :: items) ∧ NoneAfter q p (a :: items) := by
  rw [linesUp_cons_of_left hp hq, noneAfter_cons, noneAfter_cons]
  constructor
  · intro hnone
    refine ⟨⟨fun _ _ => hnone, (noneAfter_of_none hnone).1⟩, fun hqa => ?_,
      (noneAfter_of_none hnone).2⟩
    rw [hq] at hqa
    cases hqa
  · rintro ⟨⟨hnone, -⟩, -⟩
    exact hnone hp hq

/-- Items line up exactly if after an item with only one of the properties none has the other. -/
theorem linesUp_iff : LinesUp p q items ↔ NoneAfter p q items ∧ NoneAfter q p items := by
  induction items with
  | nil => simp [LinesUp, NoneAfter]
  | cons a items ih =>
    cases hp : p a with
    | false =>
      cases hq : q a with
      | false =>
        have hcons := (linesUp_cons_of_eq (hp.trans hq.symm)).trans ih
        simpa [noneAfter_cons, hp, hq] using hcons
      | true =>
        rw [and_comm, ← linesUp_cons_iff hq hp]
        exact ⟨LinesUp.symm, LinesUp.symm⟩
    | true =>
      cases hq : q a with
      | false => exact linesUp_cons_iff hp hq
      | true =>
        have hcons := (linesUp_cons_of_eq (hp.trans hq.symm)).trans ih
        simpa [noneAfter_cons, hp, hq] using hcons

end LiningUp

namespace Mapper

open Normalized JsonPath

def holds (member : String) (item : Json) : Bool := (item.member? member).isSome

/-- A property is mapped to a member of the items of the list that a query finds. -/
structure MapsItems (list : PathQuery) (member : String) (property : MappedProperty) : Prop where
  plain : PlainName member
  mapped : ∃ query, property.expression? = some (.jsonPath query) ∧
    query.source = list.source ++ "[*]." ++ member

/-- The item at a place gives a property its value for the delta at a position: it has the member,
as many items before it have the member as the position says, and the value is kept. -/
structure Gives (items : List Json) (member : String) (property : MappedProperty)
    (position place : Nat) (value : Json) : Prop where
  found : items[place]?.bind (Json.member? member) = some value
  counted : (items.take place).countP (holds member) = position
  kept : isKept property.name value

/-- No delta gets the values of two properties from two items. -/
def FromSameItems (positions : List Nat) (items : List Json) (x y : String)
    (p q : MappedProperty) : Prop :=
  ∀ i ∈ positions, ∀ j k v w, Gives items x p i j v → Gives items y q i k w → j = k

/-- A list of objects with scalar members. -/
def FlatItems (items : List Json) : Prop :=
  ∀ item ∈ items, ∃ members, item = .object members ∧ ∀ m ∈ members, m.2.isContainer = false

lemma snd_mem_of_findMember {name : String} {value : Json} {members : List Member}
    (h : findMember name members = some value) : ∃ m ∈ members, m.2 = value := by
  induction members with
  | nil => cases h
  | cons head rest ih =>
    unfold findMember at h
    split at h
    · exact ⟨head, List.mem_cons_self, Option.some.inj h⟩
    · obtain ⟨m, hm, hvalue⟩ := ih h
      exact ⟨m, List.mem_cons_of_mem _ hm, hvalue⟩

lemma FlatItems.scalar {items : List Json} (h : FlatItems items) {member : String} :
    ∀ item ∈ items, ∀ value, item.member? member = some value → value.isContainer = false := by
  intro item hitem value hvalue
  obtain ⟨members, rfl, hscalar⟩ := h item hitem
  obtain ⟨m, hm, rfl⟩ := snd_mem_of_findMember hvalue
  exact hscalar m hm

section Extracted

variable {dialect : Dialect} {field : MappedField} {p q property : MappedProperty}
  {source member x y : String} {list : PathQuery} {raw : Json} {items : List Json}

lemma keptAt_eq_some_iff_gives (hc : Compiled dialect field.mapped) (hp : property ∈ field.mapped)
    (hlist : PathQuery.parse source = .ok list) (hwhole : list.ReadWhole)
    (hmaps : MapsItems list member property) (hitems : select list.program raw = [.list items])
    (hflat : FlatItems items) {position : Nat} {value : Json} :
    keptAt raw position property = some value ↔
      ∃ place, Gives items member property position place value := by
  obtain ⟨query, hexpression, hsource⟩ := hmaps.mapped
  obtain ⟨text, htext⟩ := hc.parsed property hp _ hexpression
  have hquery : PathQuery.parse text = .ok query := by
    unfold Expression.parse at htext
    split at htext
    · split at htext <;> cases htext
    · split at htext
      · rename_i hparse
        cases htext
        exact hparse
      · cases htext
  rw [keptAt, hexpression, Option.bind_some, Expression.evaluate,
    PathQuery.evaluate_member hlist hwhole hmaps.plain hquery hsource hitems hflat.scalar,
    Option.filter_eq_some_iff, getElem?_filterMap_eq_some_iff]
  constructor
  · rintro ⟨⟨place, hfound, hcounted⟩, hkept⟩
    exact ⟨place, hfound, hcounted, hkept⟩
  · rintro ⟨place, hfound, hcounted, hkept⟩
    exact ⟨⟨place, hfound, hcounted⟩, hkept⟩

lemma valueAt_eq_some_iff_gives (hc : Compiled dialect field.mapped) (hp : property ∈ field.mapped)
    (hlist : PathQuery.parse source = .ok list) (hwhole : list.ReadWhole)
    (hmaps : MapsItems list member property) (hitems : select list.program raw = [.list items])
    (hflat : FlatItems items) {position : Nat} {value : Json} :
    valueAt field raw position property.name = some value ↔
      ∃ place given, Gives items member property position place given ∧
        value = normalize property.kind field.definition.dateForm given := by
  obtain ⟨query, hexpression, -⟩ := hmaps.mapped
  have hconstant : property.constant? = none := by
    rw [MappedProperty.constant?, MappedProperty.expression?_eq_some_iff.mp hexpression]
  rw [valueAt, hc.mapped?_eq hp, Option.bind_some, sourceAt, hconstant, Option.map_none,
    Option.or_none, Option.map_eq_some_iff]
  constructor
  · rintro ⟨given, hkept, rfl⟩
    obtain ⟨place, hgives⟩ :=
      (keptAt_eq_some_iff_gives hc hp hlist hwhole hmaps hitems hflat).mp hkept
    exact ⟨place, given, hgives, rfl⟩
  · rintro ⟨place, given, hgives, rfl⟩
    exact ⟨given,
      (keptAt_eq_some_iff_gives hc hp hlist hwhole hmaps hitems hflat).mpr ⟨place, hgives⟩, rfl⟩

lemma exists_positions (hc : Compiled dialect field.mapped) (raw : Json) :
    ∃ positions : List Nat, positions.Pairwise (· < ·) ∧
      List.Forall₂ (fun i delta => ∀ name, delta.find? name = valueAt field raw i name)
        positions (extractField field raw) ∧
      ∀ i, ∀ property ∈ field.mapped, ∀ value, keptAt raw i property = some value →
        i ∈ positions := by
  obtain ⟨positions, hsorted, hmem, haligned⟩ := extractField_aligned hc raw
  refine ⟨_, ?_, haligned, ?_⟩
  · split
    · exact List.pairwise_singleton _ _
    · exact hsorted
  · intro i property hproperty value hvalue
    have hi : i ∈ positions := (hmem i).mpr ⟨property, hproperty, value, hvalue⟩
    have hne : positions.isEmpty = false := by
      rw [List.isEmpty_eq_false_iff]
      exact List.ne_nil_of_mem hi
    rwa [hne]

end Extracted

variable {positions : List Nat} {items : List Json} {x y : String} {p q : MappedProperty}

lemma fromSameItems_of_linesUp (h : LinesUp (holds x) (holds y) items) :
    FromSameItems positions items x y p q := by
  intro i _ j k v w hv hw
  obtain ⟨a, ha, hxa⟩ := Option.bind_eq_some_iff.mp hv.found
  obtain ⟨b, hb, hyb⟩ := Option.bind_eq_some_iff.mp hw.found
  refine h j k a b ha ?_ hb ?_ (hv.counted.trans hw.counted.symm)
  · rw [holds, hxa, Option.isSome_some]
  · rw [holds, hyb, Option.isSome_some]

lemma linesUp_of_fromSameItems
    (hx : ∀ item ∈ items, ∀ value, item.member? x = some value → isKept p.name value)
    (hy : ∀ item ∈ items, ∀ value, item.member? y = some value → isKept q.name value)
    (hpositions : ∀ i j v, Gives items x p i j v → i ∈ positions)
    (h : FromSameItems positions items x y p q) : LinesUp (holds x) (holds y) items := by
  intro j k a b ha hxa hb hyb hcount
  obtain ⟨v, hv⟩ := Option.isSome_iff_exists.mp hxa
  obtain ⟨w, hw⟩ := Option.isSome_iff_exists.mp hyb
  have hfirst : Gives items x p _ j v :=
    ⟨by rw [ha, Option.bind_some, hv], rfl, hx a (List.mem_of_getElem? ha) v hv⟩
  have hsecond : Gives items y q _ k w :=
    ⟨by rw [hb, Option.bind_some, hw], hcount.symm, hy b (List.mem_of_getElem? hb) w hw⟩
  exact h _ (hpositions _ j v hfirst) j k v w hfirst hsecond

/-- Two properties of a field are mapped to members of the items of one list. The delta for a
position holds, for each of the two, the value of the item before which as many items have the
member as the position says. No delta gets the two from two items if after an item with only one of
the members no item has the other one, and, where all values are kept, only if so. -/
theorem extract_items {entityType : String} {config : MapperConfig} {schema : Schema}
    {catalog : Catalog} {mapper : Mapper} (hb : build entityType config schema catalog = .ok mapper)
    {name : String} {field : MappedField} (hf : mapper.field? name = some field)
    {p q : MappedProperty} (hp : p ∈ field.mapped) (hq : q ∈ field.mapped)
    {source : String} {list : PathQuery} (hlist : PathQuery.parse source = .ok list)
    (hwhole : list.ReadWhole) {x y : String} (hx : MapsItems list x p) (hy : MapsItems list y q)
    {raw : Json} {items : List Json} (hitems : select list.program raw = [.list items])
    (hflat : FlatItems items) :
    ∃ (positions : List Nat) (deltas : List Delta),
      (mapper.extract raw).find? name = (if deltas.isEmpty then none else some deltas) ∧
      positions.Pairwise (· < ·) ∧
      List.Forall₂ (fun i delta =>
        (∀ value, delta.find? p.name = some value ↔ ∃ j given, Gives items x p i j given ∧
          value = normalize p.kind field.definition.dateForm given) ∧
        (∀ value, delta.find? q.name = some value ↔ ∃ k given, Gives items y q i k given ∧
          value = normalize q.kind field.definition.dateForm given)) positions deltas ∧
      (NoneAfter (holds x) (holds y) items ∧ NoneAfter (holds y) (holds x) items →
        FromSameItems positions items x y p q) ∧
      ((∀ item ∈ items, (∀ value, item.member? x = some value → isKept p.name value) ∧
          ∀ value, item.member? y = some value → isKept q.name value) →
        FromSameItems positions items x y p q →
        NoneAfter (holds x) (holds y) items ∧ NoneAfter (holds y) (holds x) items) := by
  have hr := (ready_of_build hb).2
  have hc := hr.compiled field (mem_of_field? hf).1
  obtain ⟨positions, hsorted, haligned, hkept⟩ := exists_positions hc raw
  refine ⟨positions, extractField field raw, ?_, hsorted, haligned.imp fun i delta hdelta => ?_,
    fun h => fromSameItems_of_linesUp (linesUp_iff.mpr h), fun hall h => ?_⟩
  · rw [find?_extract hr, hf]
    rfl
  · simp only [hdelta]
    exact ⟨fun _ => valueAt_eq_some_iff_gives hc hp hlist hwhole hx hitems hflat,
      fun _ => valueAt_eq_some_iff_gives hc hq hlist hwhole hy hitems hflat⟩
  · refine linesUp_iff.mp (linesUp_of_fromSameItems (fun item hitem => (hall item hitem).1)
      (fun item hitem => (hall item hitem).2) (fun i j v hgives => ?_) h)
    exact hkept i p hp v
      ((keptAt_eq_some_iff_gives hc hp hlist hwhole hx hitems hflat).mpr ⟨j, hgives⟩)

section Movie

def linksQuery : PathQuery where
  source := "$.links"
  program := [.into, .name "links"]
  writable := some [.step (.key "links")]

def linkQuery (member : String) : PathQuery where
  source := "$.links[*]." ++ member
  program := [.into, .name "links", .bracket, .all, .close, .into, .name member]
  writable := some (linkPlan member)

def queriedTitle : MappedProperty :=
  ⟨"title", .primitive .string, .path (.jsonPath (linkQuery "label"))⟩

def queriedUri : MappedProperty :=
  ⟨"uri", .primitive .uri, .path (.jsonPath (linkQuery "href"))⟩

def queriedLinks : MappedField := { movieLinks with mapped := [queriedTitle, queriedUri] }

/-- Movies whose links are found by path queries. -/
def queriedConfig : MapperConfig where
  dialect := .jsonPath
  constantMark := some "+"
  mappings := ⟨[("links", ⟨[("title", "$.links[*].label"), ("uri", "$.links[*].href")],
    by decide⟩)], by decide⟩

def queriedMapper : Mapper where
  entityType := "movie"
  dialect := .jsonPath
  constantMark := some "+"
  mappings := queriedConfig.mappings
  fields := [queriedLinks, { movieLanguage with mapped := [] }]

lemma parse_linkQuery {member : String}
    (htrim : trim ("$.links[*]." ++ member).toList = ("$.links[*]." ++ member).toList)
    (hread : JsonPath.read? ("$.links[*]." ++ member).toList = some (linkQuery member).program)
    (hplan : plan? ("$.links[*]." ++ member).toList = some (linkPlan member)) :
    PathQuery.parse ("$.links[*]." ++ member) = .ok (linkQuery member) := by
  have hempty : ("$.links[*]." ++ member).toList.isEmpty = false := by simp
  unfold PathQuery.parse
  dsimp only
  rw [htrim, hempty, hread, hplan, String.ofList_toList]
  exact if_neg Bool.false_ne_true

lemma parse_label : PathQuery.parse "$.links[*].label" = .ok (linkQuery "label") :=
  @parse_linkQuery "label" (by decide) (by decide +kernel) (by decide)

lemma parse_href : PathQuery.parse "$.links[*].href" = .ok (linkQuery "href") :=
  @parse_linkQuery "href" (by decide) (by decide +kernel) (by decide)

lemma compileEntries_links :
    compileEntries Catalog.standard .jsonPath (some "+") queriedLinks.mappable
      [("title", "$.links[*].label"), ("uri", "$.links[*].href")] =
        .ok [queriedTitle, queriedUri] := by
  have hlabel : compile .jsonPath (some "+") "$.links[*].label" =
      .ok (.path (.jsonPath (linkQuery "label"))) := by
    have hclassify : MappingSource.classify (some "+") "$.links[*].label" =
        .path "$.links[*].label" := rfl
    rw [compile, hclassify]
    simp only [Expression.parse, parse_label]
  have hhref : compile .jsonPath (some "+") "$.links[*].href" =
      .ok (.path (.jsonPath (linkQuery "href"))) := by
    have hclassify : MappingSource.classify (some "+") "$.links[*].href" =
        .path "$.links[*].href" := rfl
    rw [compile, hclassify]
    simp only [Expression.parse, parse_href]
  have htitle : queriedLinks.mappable.find? (·.name == "title") = some (.plain "title" "string") :=
    rfl
  have huri : queriedLinks.mappable.find? (·.name == "uri") = some (.plain "uri" "uri") := rfl
  simp only [compileEntries, htitle, huri, hlabel, hhref]
  rfl

lemma build_queried :
    build "movie" queriedConfig movieSchema Catalog.standard = .ok queriedMapper := by
  have hschema : Dictionary.find? "movie" movieSchema = some movieFields := rfl
  have hlinks : (mappableFields Catalog.standard movieFields).find?
      (·.definition.name == "links") = some { movieLinks with mapped := [] } := rfl
  have htable : compileTable Catalog.standard .jsonPath (some "+")
      queriedConfig.mappings.withoutBlanks.entries
      (mappableFields Catalog.standard movieFields) = .ok queriedMapper.fields := by
    have hentries : queriedConfig.mappings.withoutBlanks.entries =
        [("links", ⟨[("title", "$.links[*].label"), ("uri", "$.links[*].href")], by decide⟩)] := rfl
    rw [hentries]
    simp only [compileTable, hlinks]
    have hcompiled := compileEntries_links
    unfold queriedLinks at hcompiled
    simp only [hcompiled]
    rfl
  have hmark : (queriedConfig.constantMark.filter fun m => !m.isEmpty) = some "+" := rfl
  have hdialect : queriedConfig.dialect = .jsonPath := rfl
  simp only [build, hschema, hmark, hdialect, htable]
  rfl

lemma field?_queriedLinks : queriedMapper.field? "links" = some queriedLinks := rfl

lemma plainName_label : PlainName "label" := by
  have hname : "label".toList = ['l', 'a', 'b', 'e', 'l'] := rfl
  refine ⟨hname ▸ .dotted (by decide) (by simp [isNameChar]), hname ▸ ?_⟩
  simp [Unbroken, continues, continuesWord, continuesRoot, isPunctuation, isBlank]

lemma plainName_href : PlainName "href" := by
  have hname : "href".toList = ['h', 'r', 'e', 'f'] := rfl
  refine ⟨hname ▸ .dotted (by decide) (by simp [isNameChar]), hname ▸ ?_⟩
  simp [Unbroken, continues, continuesWord, continuesRoot, isPunctuation, isBlank]

lemma readWhole_linksQuery : linksQuery.ReadWhole := by
  refine ⟨[.dotted ['l', 'i', 'n', 'k', 's']], [.step (.key "links")], ⟨?_, rfl, rfl⟩, ?_⟩
  · exact List.forall_mem_singleton.mpr (.dotted (by decide) (by simp [isNameChar]))
  · simp [Form.Broken, Form.Escaping, Unbroken, continues, continuesWord, continuesRoot,
      isPunctuation, isBlank]

/-- A link without an address, and one with a label and an address. -/
def unevenLinks : List Json := [.object [("label", .string "A")],
  .object [("label", .string "B"), ("href", .string "https://b")]]

/-- The address of the second link gets into the delta of the first. -/
theorem extract_items_movie :
    (∃ (positions : List Nat) (deltas : List Delta),
      (queriedMapper.extract (.object [("links", .list unevenLinks)])).find? "links" =
        (if deltas.isEmpty then none else some deltas) ∧
      ¬ FromSameItems positions unevenLinks "label" "href" queriedTitle queriedUri) ∧
    Gives unevenLinks "label" queriedTitle 0 0 (.string "A") ∧
    Gives unevenLinks "href" queriedUri 0 1 (.string "https://b") ∧
    ((queriedMapper.extract (.object [("links", .list unevenLinks)])).find? "links").map
      (List.map Dictionary.entries) =
      some [[("title", .string "A"), ("uri", .string "https://b")], [("title", .string "B")]] := by
  refine ⟨?_, ⟨rfl, rfl, rfl⟩, ⟨rfl, rfl, rfl⟩, rfl⟩
  have hflat : FlatItems unevenLinks := List.forall_mem_cons.mpr
    ⟨⟨_, rfl, by decide⟩, List.forall_mem_singleton.mpr ⟨_, rfl, by decide⟩⟩
  have hkept : ∀ item ∈ unevenLinks,
      (∀ value, item.member? "label" = some value → isKept "title" value) ∧
        ∀ value, item.member? "href" = some value → isKept "uri" value := by
    simp [unevenLinks, Json.member?, findMember, isKept, Json.isNull, referenceProperty]
  obtain ⟨positions, deltas, hfound, -, -, -, hnone⟩ := extract_items build_queried
    field?_queriedLinks List.mem_cons_self (List.mem_cons_of_mem _ List.mem_cons_self)
    (rfl : PathQuery.parse "$.links" = .ok linksQuery) readWhole_linksQuery
    ⟨plainName_label, linkQuery "label", rfl, rfl⟩ ⟨plainName_href, linkQuery "href", rfl, rfl⟩
    (rfl : select linksQuery.program (.object [("links", .list unevenLinks)]) =
      [.list unevenLinks]) hflat
  refine ⟨positions, deltas, hfound, fun hsame => ?_⟩
  have hafter : NoneAfter (holds "label") (holds "href") unevenLinks := (hnone hkept hsame).1
  exact absurd hafter (by simp [NoneAfter, unevenLinks, holds, Json.member?, findMember])

end Movie

end Mapper

end RecordMapping
