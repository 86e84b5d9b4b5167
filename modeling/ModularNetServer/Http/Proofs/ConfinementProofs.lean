import ModularNetServer.Library.LexPath
import ModularNetServer.Http.HttpConn

/-!
# Which files can be reached

`generateResponse` opens the web root with the response URL appended, as a C string. Nothing checks
the URL, so the path leaves the root with it.
-/

namespace ModularNetServer

open Cxx LexPath

/-- `SysUtils::getRootPath()`: a path given by the operating system, so without a NUL. -/
structure RootPath where
  path : Str
  noNul : ∀ b ∈ path, b ≠ 0

namespace RootPath

/-- `kWebRoot`. -/
def webRoot (root : RootPath) : Str := root.path ++ str "/src/www"

/-- The directories above the web root, seen from a working directory. -/
def dirs (root : RootPath) (cwd : List Str) : List Str :=
  resolve 47 46 cwd (root.path ++ str "/src")

/-- A path lies inside the web root. -/
def Inside (root : RootPath) (cwd : List Str) (path : Str) : Prop :=
  resolve 47 46 cwd root.webRoot <+: resolve 47 46 cwd path

/-- The normal form of a URL as a path that starts with the last name of the web root, to which its
    first piece is glued. -/
def relative (url : Str) : Relative Str :=
  Relative.ofComponents (components 47 46 (str "www" ++ url))

/-- After what a URL climbs over, it names the same directories again, then the last name of the web
    root. -/
def StaysInside (root : RootPath) (cwd : List Str) (url : Str) : Prop :=
  (root.dirs cwd).drop ((root.dirs cwd).length - (relative url).levels) ++ [str "www"] <+:
    (relative url).names

theorem resolve_webRoot_append (root : RootPath) (cwd : List Str) (url : Str) :
    resolve 47 46 cwd (root.webRoot ++ url) = (relative url).applyTo (root.dirs cwd) := by
  have h : root.webRoot ++ url = (root.path ++ str "/src") ++ 47 :: (str "www" ++ url) := by
    simp [webRoot, show str "/src/www" = str "/src" ++ 47 :: str "www" by decide]
  have hne : root.path ++ str "/src" ≠ [] := by
    intro h
    exact absurd (List.append_eq_nil_iff.mp h).2 (by decide)
  rw [h, resolve_append_sep 47 46 cwd hne, walk_eq]
  rfl

theorem inside_iff (root : RootPath) (cwd : List Str) (url : Str) :
    root.Inside cwd (root.webRoot ++ url) ↔ root.StaysInside cwd url := by
  have hroot : resolve 47 46 cwd root.webRoot = root.dirs cwd ++ [str "www"] := by
    have h := root.resolve_webRoot_append cwd []
    rw [List.append_nil] at h
    rw [h, show relative [] = ⟨0, [str "www"]⟩ by decide, Relative.applyTo, Nat.sub_zero,
      List.take_length]
  unfold Inside StaysInside
  rw [hroot, resolve_webRoot_append, prefix_applyTo_iff]

/-- The page for what is not found is inside. -/
theorem inside_notFound (root : RootPath) (cwd : List Str) :
    root.Inside cwd (root.webRoot ++ str "/404.html") := by
  rw [inside_iff]
  unfold StaysInside
  rw [show relative (str "/404.html") = ⟨0, [str "www", str "404.html"]⟩ by decide, Nat.sub_zero,
    List.drop_length]
  exact ⟨[str "404.html"], rfl⟩

/-- What the system sees of a path below the web root. -/
theorem upTo_webRoot_append (root : RootPath) (url : Str) :
    Scan.upTo 0 (root.webRoot ++ url) = root.webRoot ++ Scan.upTo 0 url := by
  refine Scan.upTo_append_of_forall_ne ?_ url
  intro b hb
  rcases List.mem_append.mp hb with h | h
  · exact root.noNul b h
  · exact (by decide : ∀ b ∈ str "/src/www", b ≠ 0) b h

end RootPath

namespace HttpConn

/-! ## The file that is opened -/

/-- The file that `generateResponse` opens. -/
theorem fileFd_generateResponse (env : Environment) (w : World) (c : HttpConn) :
    (generateResponse env w c).2.2.fileFd =
      if w.files.canOpen (Scan.upTo 0 (resolveUrl env w.files c.responseUrl).2.1) then
        some (Scan.upTo 0 (resolveUrl env w.files c.responseUrl).2.1)
      else none := by
  simp only [generateResponse]
  by_cases h : w.files.canOpen (Scan.upTo 0 (resolveUrl env w.files c.responseUrl).2.1)
  · simp only [World.files_emit, h, Bool.not_true, Bool.false_eq_true, if_false, if_true,
      copyResponseData]
    split_ifs <;> rfl
  · simp only [World.files_emit, h, Bool.not_false, if_true, Bool.false_eq_true, if_false]

/-- **A file is opened inside the web root** exactly when the path that the response URL leads to
    does not leave it, or names nothing that can be opened. -/
theorem opens_inside_iff (root : RootPath) (cwd : List Str) (env : Environment) (w : World)
    (c : HttpConn) :
    (∀ path, (generateResponse { env with webRoot := root.webRoot } w c).2.2.fileFd = some path →
      root.Inside cwd path) ↔
    ((w.files.stat (root.webRoot ++ Scan.upTo 0 c.responseUrl)).isSome →
      w.files.canOpen (root.webRoot ++ Scan.upTo 0 c.responseUrl) →
        root.StaysInside cwd (Scan.upTo 0 c.responseUrl)) := by
  rw [fileFd_generateResponse, ← root.inside_iff, ← root.upTo_webRoot_append]
  cases hstat : w.files.stat (Scan.upTo 0 (root.webRoot ++ c.responseUrl)) with
  | some size =>
    rw [resolveUrl_some hstat]
    simp
  | none =>
    rw [resolveUrl_none hstat]
    simp only [Option.isSome_none, Bool.false_eq_true, false_imp_iff, iff_true]
    intro path hpath
    have hpage : Scan.upTo 0 (root.webRoot ++ str "/404.html") = root.webRoot ++ str "/404.html" := by
      rw [root.upTo_webRoot_append, show Scan.upTo 0 (str "/404.html") = str "/404.html" by decide]
    rw [hpage] at hpath
    split_ifs at hpath
    cases hpath
    exact root.inside_notFound cwd

/-! ## A page outside -/

/-- A server in `/srv`. -/
def srvRoot : RootPath := ⟨str "/srv", by decide⟩

def srvEnvironment : Environment :=
  Router.environment ⟨fun _ _ => [], id⟩ (fun _ => none) (fun _ => ⟨2025, 1, 1, 0, 0, 0⟩)
    srvRoot.webRoot ⟨8080, 8, 0, 0⟩

/-- The server has started, with its interceptor, and somebody has logged in. -/
def srvWorld : World :=
  ((World.start (fun _ => 0) (fun _ => 0) (str "1")
    (fun _ _ => ⟨true, true, true, true, true, true, []⟩)
    ⟨fun path => if path = str "/srv/src/www/../x" then some 9 else none,
      fun path => decide (path = str "/srv/src/www/../x"), 0⟩ false false).createToken srvEnvironment
    (str "alice") 1800000).2

/-- A new connection that has received a request for `/../x` with that token. -/
def climbing : HttpConn :=
  ((fresh 5 (str "10.0.0.1")).read .LT
    [.received 71 (str "ET /../x HTTP/1.1\r\nAuthorization: token_0_1_alice.\r\n\r\n")]).2

/-- The request is answered with a file outside the web root. -/
theorem request_opens_outside :
    ∃ w c path, process srvEnvironment srvWorld climbing = .ok (true, w, c) ∧
      c.fileFd = some path ∧ ¬ srvRoot.Inside [] path := by
  have h : (process srvEnvironment srvWorld climbing).toOption.map (fun r => (r.1, r.2.2.fileFd)) =
      some (true, some (str "/srv/src/www/../x")) := by decide +kernel
  have hout : ¬ srvRoot.Inside [] (str "/srv/src/www/../x") := by
    unfold RootPath.Inside
    decide
  cases hp : process srvEnvironment srvWorld climbing with
  | error e => simp [hp, Except.toOption] at h
  | ok r =>
    obtain ⟨built, w, c⟩ := r
    simp only [hp, Except.toOption, Option.map_some, Option.some.injEq, Prod.mk.injEq] at h
    obtain ⟨rfl, hfd⟩ := h
    exact ⟨w, c, _, rfl, hfd, hout⟩

end HttpConn

end ModularNetServer
