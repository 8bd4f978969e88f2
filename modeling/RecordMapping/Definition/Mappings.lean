import RecordMapping.Definition.Fields
import RecordMapping.Mapping.Values
import RecordMapping.Project.Config

/-!
# Definitions of mappings

How dialects, mapping tables, mapper configurations and entity values are read and written. A
constant mark that is left out is the default one, and a mark of null switches constants off.
-/

namespace RecordMapping

namespace Dialect

def decode (datum : Datum) : Decoded Dialect :=
  Decode.variant false [(Dialect.simple.id, .simple), (Dialect.jsonPath.id, .jsonPath)] datum

def encode (dialect : Dialect) : Json := .string dialect.id

end Dialect

namespace MappingTable

def decode (datum : Datum) : Decoded MappingTable :=
  Decode.dictionary (Decode.dictionary Decode.text) datum

def shape : Shape := .dictionary (.dictionary .text)

def encode (table : MappingTable) : Json := Dictionary.encode (Dictionary.encode .string) table

end MappingTable

namespace MapperSection

def put (section_ : MapperSection) (member : String) (datum : Datum) :
    Decoded (Option MapperSection) :=
  match member with
  | "dialect" => do return some { section_ with dialect := ← Decode.optional Dialect.decode datum }
  | "constant_prefix" => do
    return some { section_ with constantMark := ← Decode.optional Decode.text datum }
  | "field_mappings" => do return some { section_ with mappings := ← MappingTable.decode datum }
  | _ => .ok none

def members : Decode.Members :=
  [⟨"dialect", false, .optional .variant⟩, ⟨"constant_prefix", false, .optional .text⟩,
    ⟨"field_mappings", false, MappingTable.shape⟩]

def decode (datum : Datum) : Decoded MapperSection :=
  Decode.draft false "FieldMapperSection" members put .default datum

def encode (config : MapperSection) : Json :=
  .object
    [("dialect", encodeOptional Dialect.encode config.dialect),
      ("constant_prefix", encodeOptional .string config.constantMark),
      ("field_mappings", config.mappings.encode)]

end MapperSection

namespace MapperConfig

def put (config : MapperConfig) (member : String) (datum : Datum) :
    Decoded (Option MapperConfig) :=
  match member with
  | "dialect" => do return some { config with dialect := ← Dialect.decode datum }
  | "constant_prefix" => do
    return some { config with constantMark := ← Decode.optional Decode.text datum }
  | "field_mappings" => do return some { config with mappings := ← MappingTable.decode datum }
  | _ => .ok none

def members : Decode.Members :=
  [⟨"dialect", false, .variant⟩, ⟨"constant_prefix", false, .optional .text⟩,
    ⟨"field_mappings", false, MappingTable.shape⟩]

def decode (datum : Datum) : Decoded MapperConfig :=
  Decode.draft false "FieldMapperConfig" members put ⟨.simple, defaultMark, .empty⟩ datum

def encode (config : MapperConfig) : Json :=
  .object
    [("dialect", config.dialect.encode),
      ("constant_prefix", encodeOptional .string config.constantMark),
      ("field_mappings", config.mappings.encode)]

end MapperConfig

namespace EntityValues

def decode (datum : Datum) : Decoded EntityValues :=
  Decode.dictionary (Decode.sequence (Decode.dictionary Decode.value)) datum

def encodeDelta (delta : Delta) : Json := Dictionary.encode id delta

def encode (values : EntityValues) : Json :=
  Dictionary.encode (fun deltas => .list (deltas.map encodeDelta)) values

end EntityValues

end RecordMapping
