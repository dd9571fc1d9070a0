import FullServiceMirror.Public.Query

/-!
# `public/mirror_service.rs`

`poll_impl` takes the manager's lock anew for every response it resolves and
once more to drain the pending requests; here it runs without interruption. Its
calls of `resolve_query` are returned with their results, as its log has them.
-/
namespace FullServiceMirror

open Rust

/-- A call of `resolve_query` and what it returned. -/
structure Resolution where
  queryId : String
  queryResponse : QueryResponse
  result : Except String Unit

namespace MirrorService

/-- "Go over any responses we may have received and attempt to resolve them." -/
def resolveResponses (m : QueryManager) : List (String × QueryResponse) → QueryManager × List Resolution
  | [] => (m, [])
  | (queryId, queryResponse) :: rest =>
    let (m, result) := m.resolveQuery queryId queryResponse
    let (m, resolutions) := resolveResponses m rest
    (m, { queryId, queryResponse, result } :: resolutions)

def pollImpl (m : QueryManager) (request : PollRequest) :
    QueryManager × List Resolution × PollResponse :=
  let (m, resolutions) := resolveResponses m request.queryResponses.iter
  let (m, pendingRequests) := m.getPendingRequests
  (m, resolutions, { queryRequests := pendingRequests })

end MirrorService

end FullServiceMirror
