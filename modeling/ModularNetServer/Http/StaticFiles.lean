import ModularNetServer.Http.Proofs.ResponseProofs
import ModularNetServer.Http.Proofs.RangeHeadersProofs

/-!
# Static files

A disk, with what its files hold, and what a `GET` for one of its paths is to be answered with.
-/

namespace ModularNetServer

open Cxx

/-- What a path names: a regular file, or a directory or something else with an `st_size` of its own. -/
inductive DiskEntry
  | file (contents : Str) (readable : Bool)
  | other (size : Int) (readable : Bool)

/-- `st_size`. -/
def DiskEntry.size : DiskEntry → Int
  | .file contents _ => contents.length
  | .other size _ => size

/-- `open` for reading succeeds; it does so on a directory too. -/
def DiskEntry.readable : DiskEntry → Bool
  | .file _ readable => readable
  | .other _ readable => readable

/-- A disk. A path is a C string, and a size fits an `off_t`. -/
structure Disk where
  entry : Str → Option DiskEntry
  cString : ∀ path, 0 ∈ path → entry path = none
  fits : ∀ path e, entry path = some e → 0 ≤ e.size ∧ e.size < 2 ^ 63

/-- The answers of the system about a disk. -/
def Disk.files (disk : Disk) (unfilled : Int) : FileSystem where
  stat path := (disk.entry path).map DiskEntry.size
  canOpen path := (disk.entry path).any DiskEntry.readable
  unfilled := unfilled

namespace HttpConn

/-- What a connection that has been reset does with a request that the interceptors let through:
    `Router::dispatch`, and what follows it in `handleRequest`. -/
def answerDispatch (env : Environment) (w : World) (c : HttpConn) (sockfd : Int) (side : ReadSide) :
    Except Escape Response :=
  match respond env .dispatch side.httpBase w ⟨c.httpResponse.responseUrl, [], [], []⟩ with
  | .error e => .error e
  | .ok (w, r) => response (.ok (finish env w { c.ready sockfd side with httpResponse := r }))

/-- The path of the file that a request names. -/
def requestPath (env : Environment) (base : HttpBase) : Str := env.webRoot ++ chosenUrl base base.url

/-- The data of a 200 answer. -/
def okHeader (keepAlive : Bool) (mime : Str) (length : Int) : Str :=
  ((HttpResponse.empty.setHeader (str "Accept-Ranges") (str "bytes")).buildResponseHeader keepAlive 200
    (str "OK") mime length).responseData

namespace Response

/-- The bytes of the file that the response is to send. -/
def body (disk : Disk) (r : Response) : Str :=
  match r.fileFd.bind disk.entry with
  | some (.file contents _) => (contents.drop r.fileOffset.toNat).take r.fileResponseSize.toNat
  | _ => []

/-- The response is 200 with a file. -/
structure SendsContents (disk : Disk) (keepAlive : Bool) (mime contents : Str) (r : Response) : Prop where
  built : r.built = true
  head : r.writeBuf = okHeader keepAlive mime contents.length
  body : r.body disk = contents

/-- The response is 404. -/
structure IsNotFound (r : Response) : Prop where
  built : r.built = true
  head : str "HTTP/1.1 404 " <+: r.writeBuf

/-- The response is 200 with what a regular file that can be read holds, and 404 without such a file. -/
structure TellsTruth (disk : Disk) (path : Str) (keepAlive : Bool) (mime : Str) (r : Response) : Prop where
  found : ∀ contents, disk.entry path = some (.file contents true) →
    r.SendsContents disk keepAlive mime contents
  notFound : (∀ contents, disk.entry path ≠ some (.file contents true)) → r.IsNotFound

end Response

end HttpConn

end ModularNetServer
