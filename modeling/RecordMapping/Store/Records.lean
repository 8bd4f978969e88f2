import RecordMapping.Store.Query

namespace RecordMapping

/-- The identifier of a record under a member name, if it has a usable one. -/
def recordId (idKey : String) (record : Json) : Option String :=
  (record.member? idKey).bind Json.identifier?

namespace Records

def find? (idKey id : String) (records : List Json) : Option Json :=
  records.find? fun record => recordId idKey record == some id

/-- The first records of identifiers; unknown ones are left out. -/
def findAll (idKey : String) (ids : List String) (records : List Json) : List Json :=
  ids.filterMap fun id => find? idKey id records

/-- The records with one put in: in the place of the first one of its identifier, or else last. -/
def put (idKey id : String) (record : Json) : List Json → List Json
  | [] => [record]
  | old :: rest =>
    if recordId idKey old = some id then record :: rest else old :: put idKey id record rest

def remove (idKey id : String) (records : List Json) : List Json :=
  records.filter fun record => recordId idKey record != some id

/-- A record with an identifier: its own one, or a fresh one put into it. A record that is no object
and has none cannot be identified. -/
def identify? (idKey fresh : String) (record : Json) : Option (String × Json) :=
  match recordId idKey record with
  | some id => some (id, record)
  | none =>
    match record with
    | .object members => some (fresh, .object (putMember idKey (.string fresh) members))
    | _ => none

end Records

end RecordMapping
