import ModularNetServer.Http.Proofs.RangeResponseProofs
import ModularNetServer.Http.StaticFiles

/-!
# Which static responses tell the truth

A page that stands in for a missing file is sent with the status of any other page, a directory is opened
like a file, and the size of a file is kept in an `int`.
-/

namespace ModularNetServer

open Cxx

namespace HttpConn

variable {disk : Disk} {path : Str} {env : Environment} {base : HttpBase}

/-! ## The disk -/

/-- A path that names something is handed to the system as it is. -/
theorem upTo_path {e : DiskEntry} (h : disk.entry path = some e) : Scan.upTo 0 path = path := by
  have hnul : 0 ∉ path := by
    intro hmem
    rw [disk.cString path hmem] at h
    cases h
  unfold Scan.upTo
  rw [List.takeWhile_eq_self_iff]
  intro b hb
  simpa using fun heq : b = 0 => hnul (heq ▸ hb)

/-! ## The header -/

theorem chooseWindow_unset (size : Int) :
    chooseWindow ByteRange.unset 0 size = ⟨0, size, 200, str "OK", size⟩ := rfl

theorem fileHeader_ok (base : HttpBase) (size : Int) (mime : Str) :
    fileHeader base ⟨0, size, 200, str "OK", size⟩ size mime = okHeader base.keepAlive mime size := rfl

theorem okHeader_length (keepAlive : Bool) {mime : Str} (hmime : mime.length ≤ 24) {size : Int}
    (hsize : size.natAbs < 10 ^ 10) : (okHeader keepAlive mime size).length < 4096 := by
  have hlength := HttpResponse.length_buildResponseHeader
    (r := HttpResponse.empty.setHeader (str "Accept-Ranges") (str "bytes")) rfl keepAlive 200 (str "OK") mime size
  have hdigits := toString_length_le (by decide) hsize
  have hlengths : (Cxx.toString 200).length = 3 ∧ (str "OK").length = 2 ∧
      ((HttpResponse.empty.setHeader (str "Accept-Ranges") (str "bytes")).responseHeaders.map
        HttpResponse.headerLine).flatten.length ≤ 100 := by decide
  unfold okHeader
  omega

/-- The status is 200. -/
theorem okHeader_not_404 (keepAlive : Bool) (mime : Str) (size : Int) :
    ¬ str "HTTP/1.1 404 " <+: okHeader keepAlive mime size := by
  have hok : str "HTTP/1.1 200 " <+: okHeader keepAlive mime size := by
    have hstatus : str "HTTP/1.1 " ++ Cxx.toString 200 ++ str " " = str "HTTP/1.1 200 " := by decide
    unfold okHeader HttpResponse.buildResponseHeader
    dsimp only
    rw [hstatus]
    simp only [List.append_assoc, List.prefix_append]
  intro h
  have heq := List.prefix_of_prefix_length_le h hok (by decide)
  exact absurd heq (by decide)

/-! ## The response -/

/-- Without a range the answer has the status 200, whatever file is sent. -/
theorem fileResponse_not_404 (env : Environment) (files : FileSystem) (hrange : base.range = ByteRange.unset)
    (url : Str) : ¬ (fileResponse env files base url).IsNotFound := by
  intro h
  have hbuilt := h.built
  have hhead := h.head
  unfold fileResponse at hbuilt hhead
  dsimp only at hbuilt hhead
  split_ifs at hbuilt hhead
  rw [hrange, chooseWindow_unset, fileHeader_ok] at hbuilt hhead
  unfold builtResponse at hbuilt hhead
  dsimp only at hbuilt hhead
  have hlength := of_decide_eq_true hbuilt
  rw [if_pos hlength] at hhead
  exact okHeader_not_404 _ _ _ hhead

/-- The answer for a regular file that can be read. -/
theorem fileResponse_file {contents url : Str} (hrange : base.range = ByteRange.unset) (unfilled : Int)
    (h : disk.entry (env.webRoot ++ url) = some (.file contents true)) :
    fileResponse env (disk.files unfilled) base url =
      { builtResponse (okHeader base.keepAlive (getMimeType url) (toInt32 contents.length)) with
        fileFd := some (env.webRoot ++ url)
        fileOffset := 0
        fileResponseSize := toInt32 contents.length } := by
  have hpath := upTo_path h
  have hstat : (disk.files unfilled).stat (Scan.upTo 0 (env.webRoot ++ url)) = some (contents.length : Int) := by
    rw [hpath]
    simp only [Disk.files, h, Option.map_some, DiskEntry.size]
  have hopen : (disk.files unfilled).canOpen (env.webRoot ++ url) = true := by
    simp only [Disk.files, h, Option.any_some, DiskEntry.readable]
  unfold fileResponse
  rw [resolveUrl_some hstat]
  dsimp only
  rw [hpath, if_pos hopen, hrange, chooseWindow_unset, fileHeader_ok]

/-- A file whose size fits an `int` is sent. -/
theorem fileResponse_sends {contents url : Str} (hrange : base.range = ByteRange.unset) (unfilled : Int)
    (h : disk.entry (env.webRoot ++ url) = some (.file contents true)) (hsize : contents.length < 2 ^ 31) :
    (fileResponse env (disk.files unfilled) base url).SendsContents disk base.keepAlive (getMimeType url)
      contents := by
  have hfits : toInt32 contents.length = contents.length := toInt32_of_lt (by omega) (by omega)
  have hsmall : (contents.length : Int).natAbs < 10 ^ 10 := by omega
  have hlength := okHeader_length base.keepAlive (getMimeType_length url) hsmall
  rw [fileResponse_file hrange unfilled h, hfits]
  unfold builtResponse
  rw [if_pos hlength, decide_eq_true hlength]
  refine ⟨rfl, rfl, ?_⟩
  unfold Response.body
  dsimp only
  rw [Option.bind_some, h]
  dsimp only
  rw [Int.toNat_zero, List.drop_zero, Int.toNat_natCast, List.take_length]

/-- Of a larger file less is sent than it holds. -/
theorem fileResponse_large {contents url : Str} (hrange : base.range = ByteRange.unset) (unfilled : Int)
    (h : disk.entry (env.webRoot ++ url) = some (.file contents true)) (hsize : 2 ^ 31 ≤ contents.length) :
    (fileResponse env (disk.files unfilled) base url).body disk ≠ contents := by
  rw [fileResponse_file hrange unfilled h]
  intro hbody
  have hlength := congrArg List.length hbody
  have hsmall : toInt32 contents.length < 2 ^ 31 := by
    have hlt := @Int.bmod_lt contents.length (2 ^ 32) (by decide)
    unfold toInt32
    omega
  unfold Response.body builtResponse at hlength
  simp only [Option.bind_some, h, List.length_take, List.length_drop] at hlength
  omega

/-- Without a handler a `GET` is answered with a file. -/
theorem answerDispatch_file (env : Environment) (w : World) (c : HttpConn) (sockfd : Int) {side : ReadSide}
    (hget : side.httpBase.method = str "GET")
    (hroute : Router.route env side.httpBase.method side.httpBase.url = none) :
    answerDispatch env w c sockfd side =
      .ok (fileResponse env w.files side.httpBase (chosenUrl side.httpBase side.httpBase.url)) := by
  unfold answerDispatch respond Router.dispatch
  dsimp only
  rw [hroute]
  dsimp only
  rw [if_pos hget]
  dsimp only
  exact response_finish_file env _ c sockfd side side.httpBase.url

/-- A `GET` that no handler is registered for is answered truly exactly when the path names a regular file
    that can be read and the size of which fits an `int`. -/
theorem answerDispatch_tellsTruth_iff (env : Environment) (disk : Disk) (unfilled : Int) (w : World)
    (c : HttpConn) (sockfd : Int) {side : ReadSide} (hget : side.httpBase.method = str "GET")
    (hroute : Router.route env side.httpBase.method side.httpBase.url = none)
    (hrange : side.httpBase.range = ByteRange.unset) :
    ∃ r, answerDispatch env { w with files := disk.files unfilled } c sockfd side = .ok r ∧
      (r.TellsTruth disk (requestPath env side.httpBase) side.httpBase.keepAlive
          (getMimeType (chosenUrl side.httpBase side.httpBase.url)) ↔
        ∃ contents, disk.entry (requestPath env side.httpBase) = some (.file contents true) ∧
          contents.length < 2 ^ 31) := by
  refine ⟨_, answerDispatch_file env _ c sockfd hget hroute, ?_⟩
  dsimp only
  constructor
  · intro htruth
    by_cases hfile : ∃ contents, disk.entry (requestPath env side.httpBase) = some (.file contents true)
    · obtain ⟨contents, hcontents⟩ := hfile
      refine ⟨contents, hcontents, ?_⟩
      by_contra hlarge
      exact fileResponse_large hrange unfilled hcontents (not_lt.mp hlarge) (htruth.found contents hcontents).body
    · have hnone : ∀ contents, disk.entry (requestPath env side.httpBase) ≠ some (.file contents true) :=
        fun contents hcontents => hfile ⟨contents, hcontents⟩
      exact absurd (htruth.notFound hnone) (fileResponse_not_404 env _ hrange _)
  · rintro ⟨contents, hcontents, hsize⟩
    constructor
    · intro contents' hcontents'
      rw [hcontents] at hcontents'
      obtain rfl : contents = contents' := by
        injection hcontents' with hentry
        injection hentry
      exact fileResponse_sends hrange unfilled hcontents hsize
    · intro hnone
      exact absurd hcontents (hnone contents)

/-- A disk with one file. -/
def diskWith (path contents : Str) (hpath : 0 ∉ path) (hsize : contents.length < 2 ^ 63) : Disk where
  entry := fun p => if p = path then some (.file contents true) else none
  cString := by
    intro p hp
    rw [if_neg]
    rintro rfl
    exact hpath hp
  fits := by
    intro p e h
    split_ifs at h
    cases h
    show 0 ≤ (contents.length : Int) ∧ (contents.length : Int) < 2 ^ 63
    omega

/-- A disk with the page that stands in for missing ones, and one with another page. -/
def notFoundDisk : Disk := diskWith (str "/srv/src/www/404.html") (str "not found") (by decide) (by decide)

def pageDisk : Disk := diskWith (str "/srv/src/www/page.html") (str "hello") (by decide) (by decide)

/-- A connection's read side after a `GET`. -/
def getSide (url : Str) : ReadSide :=
  { ReadSide.init [] with httpBase := { HttpBase.init [] with method := str "GET", url := url } }

theorem answerDispatch_tellsTruth_iff_page :
    ∃ r, answerDispatch srvEnvironment { pageWorld 0 with files := pageDisk.files 0 } (fresh 5 []) 5
          (getSide (str "/page.html")) = .ok r ∧
      (r.TellsTruth pageDisk (requestPath srvEnvironment (getSide (str "/page.html")).httpBase) false
          (getMimeType (chosenUrl (getSide (str "/page.html")).httpBase (str "/page.html"))) ↔
        ∃ contents, pageDisk.entry (requestPath srvEnvironment (getSide (str "/page.html")).httpBase) =
            some (.file contents true) ∧ contents.length < 2 ^ 31) :=
  @answerDispatch_tellsTruth_iff srvEnvironment pageDisk 0 (pageWorld 0) (fresh 5 []) 5
    (getSide (str "/page.html")) rfl (by decide) rfl

/-- A path that does not exist is answered with the status 200 and the page that says otherwise. -/
theorem missing_page_is_ok :
    ∃ r, answerDispatch srvEnvironment { pageWorld 0 with files := notFoundDisk.files 0 } (fresh 5 []) 5
          (getSide (str "/nosuch.html")) = .ok r ∧
      ¬ r.TellsTruth notFoundDisk (requestPath srvEnvironment (getSide (str "/nosuch.html")).httpBase) false
        (getMimeType (chosenUrl (getSide (str "/nosuch.html")).httpBase (str "/nosuch.html"))) := by
  refine ⟨_, answerDispatch_file srvEnvironment _ (fresh 5 []) 5 rfl (by decide), ?_⟩
  intro htruth
  refine fileResponse_not_404 srvEnvironment _ rfl _ (htruth.notFound ?_)
  have hnone : notFoundDisk.entry
      (requestPath srvEnvironment (getSide (str "/nosuch.html")).httpBase) = none := by
    unfold notFoundDisk diskWith
    dsimp only
    rw [if_neg]
    decide
  intro contents h
  rw [hnone] at h
  cases h

end HttpConn

end ModularNetServer
