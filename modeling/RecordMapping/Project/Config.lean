import RecordMapping.Mapping.Table
import RecordMapping.Schema.Catalog
import RecordMapping.Store.Config

namespace RecordMapping

structure ProjectConfig where
  name : String
  version : String
  dialect : Dialect
  settings : Dictionary Json

namespace ProjectConfig

def defaultVersion : String := "0.1.0"

end ProjectConfig

/-- How the records of an entity type are mapped. -/
structure MapperSection where
  dialect : Option Dialect
  constantMark : Option String
  mappings : MappingTable
  deriving DecidableEq

namespace MapperSection

/-- The section of an entity type that configures none. -/
def default : MapperSection := ⟨none, MapperConfig.defaultMark, .empty⟩

end MapperSection

/-- An entity type. Names of fields may be repeated. -/
structure EntityTypeConfig where
  id : String
  label : Option String
  readOnly : Bool
  fields : List (String × FieldConfig)
  mapper : MapperSection
  storage : Option StorageConfig
  deriving DecidableEq

namespace EntityTypeConfig

/-- The label, or else the id. -/
def title (type : EntityTypeConfig) : String := type.label.getD type.id

def definitions (type : EntityTypeConfig) : List FieldDefinition := mergeFields type.fields

/-- The mapper's configuration in a project of a default dialect. -/
def mapperConfig (type : EntityTypeConfig) (dialect : Dialect) : MapperConfig :=
  ⟨type.mapper.dialect.getD dialect, type.mapper.constantMark, type.mapper.mappings⟩

end EntityTypeConfig

namespace Schema

def ofTypes (types : List EntityTypeConfig) : Schema :=
  Dictionary.ofList (types.map fun type => (type.id, type.definitions))

end Schema

end RecordMapping
