import Mathlib.Data.List.Basic
/-!
# The messages of `/db` (`http_hnd_db.proto`)

A `double` is its IEEE bit pattern, a `string` or `bytes` field the bytes it holds.
-/
namespace Acppsrv.Db

abbrev Bytes := List UInt8

/-- `message Value`: the `oneof val`, `notSet` when no member is set (http_hnd_db.proto:9). -/
inductive Value where
  | notSet
  | vNull
  | vInt64 (v : Int64)
  | vDouble (bits : UInt64)
  | vText (v : Bytes)
  | vBlob (v : Bytes)
  deriving DecidableEq, Repr

/-- `message Row`. -/
abbrev Row := List Value

/-- `message Request` (http_hnd_db.proto:23). -/
structure Request where
  db : String
  query : String
  args : List Value
  retryIfLocked : Bool
  deriving DecidableEq, Repr

/-- `message Response` (http_hnd_db.proto:30). -/
structure Response where
  ok : Bool := false
  msg : String := ""
  rows : List Row := []
  deriving DecidableEq, Repr

end Acppsrv.Db
