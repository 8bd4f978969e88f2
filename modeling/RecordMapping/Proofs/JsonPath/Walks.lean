import RecordMapping.Proofs.JsonPath.Programs

/-!
# Walks of plans

The instructions of a form take the machine from the nodes matched so far to others and leave
nothing pending. Which values these have depends on the values of the former ones only: a name gives
members, a star all children, and a position items of lists, or of the lists that are members of an
object. Main statement: a query of forms that are read as a whole selects the values its plan
reaches.
-/

namespace RecordMapping

open JsonPath

/-- The item of a list at a written position, as the query engine counts it. -/
def Json.itemAt (written : Int) : Json → List Json
  | .list items => items[positionIn items.length written]?.toList
  | _ => []

/-- The item of a list at a written position, or those of the lists that an object has as
members. -/
def Json.itemsOf (written : Int) : Json → List Json
  | .object members => (members.map Prod.snd).flatMap (Json.itemAt written)
  | value => value.itemAt written

def Json.children : Json → List Json
  | .list items => items
  | .object members => members.map Prod.snd
  | _ => []

namespace Segment

/-- The values that the query engine comes to from a value. -/
def reach : Segment → Json → List Json
  | .step (.key name), value => (value.member? name).toList
  | .step (.index n), value => value.itemsOf (clampToSigned (Binary64.ofInt n).truncate)
  | .wildcard, value => value.children

/-- The nodes that the query engine comes to from nodes. -/
def follow : Segment → List Node → List Node
  | .step (.key name), nodes => nodes.filterMap (Node.member? name)
  | .step (.index n), nodes =>
    nodes.flatMap (itemsOf (clampToSigned (Binary64.ofInt n).truncate))
  | .wildcard, nodes => nodes.flatMap Node.children

end Segment

/-- The values that the query engine comes to from values along a plan. -/
def Plan.reach (plan : Plan) (values : List Json) : List Json :=
  plan.foldl (fun values segment => values.flatMap segment.reach) values

namespace JsonPath

lemma values_children (node : Node) :
    node.children.map Node.value = node.value.children := by
  have hvalues (values : List Json) :
      ((values.zipIdx.map fun (value, position) => (⟨position :: node.trail, value⟩ : Node)).map
        Node.value) = values := by
    rw [List.map_map]
    exact List.zipIdx_map_fst 0 values
  obtain ⟨trail, value⟩ := node
  cases value with
  | list items => exact hvalues items
  | object members => exact hvalues (members.map Prod.snd)
  | _ => rfl

lemma memberFrom?_map_snd (name : String) (place : Nat) (members : List Member) :
    (memberFrom? name place members).map Prod.snd = findMember name members := by
  induction members generalizing place with
  | nil => rfl
  | cons member rest ih =>
    obtain ⟨key, value⟩ := member
    simp only [memberFrom?, findMember]
    split
    · rfl
    · exact ih (place + 1)

lemma value_member? (name : String) (node : Node) :
    (node.member? name).map Node.value = node.value.member? name := by
  obtain ⟨trail, value⟩ := node
  cases value with
  | object members =>
    rw [Json.member?, ← memberFrom?_map_snd name 0 members]
    simp [Node.member?, Option.map_map, Function.comp_def]
  | _ => rfl

lemma values_item? (written : Int) (node : Node) :
    (node.item? written).toList.map Node.value = node.value.itemAt written := by
  obtain ⟨trail, value⟩ := node
  cases value with
  | list items =>
    simp only [Node.item?, Json.itemAt]
    cases items[positionIn items.length written]? <;> rfl
  | _ => rfl

lemma values_itemsOf (written : Int) (node : Node) :
    (itemsOf written node).map Node.value = node.value.itemsOf written := by
  have hchildren := values_children node
  obtain ⟨trail, value⟩ := node
  cases value with
  | object members =>
    rw [Json.itemsOf, ← show _ = members.map Prod.snd from hchildren, List.flatMap_map, itemsOf,
      List.filterMap_eq_flatMap_toList, List.map_flatMap]
    exact List.flatMap_congr fun child _ => values_item? written child
  | list items => exact values_item? written ⟨trail, .list items⟩
  | _ => rfl

lemma values_follow (segment : Segment) (nodes : List Node) :
    (segment.follow nodes).map Node.value = (nodes.map Node.value).flatMap segment.reach := by
  have hflat {visit : Node → List Node}
      (h : ∀ node, (visit node).map Node.value = segment.reach node.value) :
      (nodes.flatMap visit).map Node.value = (nodes.map Node.value).flatMap segment.reach := by
    rw [List.map_flatMap, List.flatMap_map]
    exact List.flatMap_congr fun node _ => h node
  cases segment with
  | wildcard => exact hflat values_children
  | step step =>
    cases step with
    | key name =>
      rw [Segment.follow, List.filterMap_eq_flatMap_toList]
      refine hflat fun node => ?_
      rw [Segment.reach, ← value_member?]
      cases node.member? name <;> rfl
    | index n => exact hflat (values_itemsOf _)

/-- The machine with some nodes matched and nothing pending. -/
def Machine.resting (document : Json) (nodes : List Node) : Machine :=
  ⟨document, ⟨nodes, [], []⟩, none⟩

lemma foldl_instructions (form : Normalized.Form) (document : Json) (nodes : List Node) :
    form.instructions.foldl Machine.step (.resting document nodes) =
      .resting document (form.segment.follow nodes) := by
  cases form with
  | dotted name =>
    simp [Normalized.Form.instructions, Machine.resting, Machine.step, Walker.run, Walker.name,
      Walker.narrowed, Normalized.Form.segment, Segment.follow]
  | dottedStar => rfl
  | quoted quote name =>
    simp [Normalized.Form.instructions, Machine.resting, Machine.step, Walker.run, Walker.name,
      Walker.close, Walker.closePlain, Walker.subscripted, Walker.narrowed,
      Normalized.Form.segment, Segment.follow]
  | position before digits after =>
    simp [Normalized.Form.instructions, Machine.resting, Machine.step, Walker.run,
      Walker.close, Walker.closePlain, Walker.subscripted, Walker.narrowed,
      Normalized.Form.segment, Segment.follow]
  | star before after => rfl

lemma foldl_flatMap_instructions (forms : List Normalized.Form) (document : Json)
    (nodes : List Node) :
    (forms.flatMap Normalized.Form.instructions).foldl Machine.step (.resting document nodes) =
      .resting document ((forms.map Normalized.Form.segment).foldl
        (fun nodes segment => segment.follow nodes) nodes) := by
  induction forms generalizing nodes with
  | nil => rfl
  | cons form others ih =>
    rw [List.flatMap_cons, List.foldl_append, foldl_instructions, ih]
    rfl

theorem select_instructions (forms : List Normalized.Form) (document : Json) :
    select (forms.flatMap Normalized.Form.instructions) document =
      Plan.reach (forms.map Normalized.Form.segment) [document] := by
  have hvalues (plan : Plan) (nodes : List Node) :
      (plan.foldl (fun nodes segment => segment.follow nodes) nodes).map Node.value =
        plan.reach (nodes.map Node.value) := by
    induction plan generalizing nodes with
    | nil => rfl
    | cons segment rest ih =>
      rw [List.foldl_cons, ih, values_follow]
      rfl
  have hrun := foldl_flatMap_instructions forms document [⟨[], document⟩]
  rw [select, run, Machine.atRoot]
  rw [Machine.resting] at hrun
  rw [hrun]
  exact hvalues _ _

end JsonPath

end RecordMapping
