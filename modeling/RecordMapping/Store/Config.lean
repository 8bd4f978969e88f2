import RecordMapping.Store.Format

namespace RecordMapping

structure FileStorage where
  path : String
  format : Option RecordFormat
  idKey : String
  deriving DecidableEq

namespace FileStorage

/-- The member that identifies records unless another is configured. -/
def defaultIdKey : String := "id"

end FileStorage

inductive StorageConfig where
  | file (file : FileStorage)
  deriving DecidableEq

end RecordMapping
