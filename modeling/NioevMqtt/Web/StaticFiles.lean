-- SUMMARY: The files of the web interface: which URLs stay below its directory, and that others reach every file the process can read.
import Mathlib.Data.List.TakeWhile
import NioevMqtt.Library.Paths
import NioevMqtt.Scripting.ScriptStore

/-!
# Static files

`GET /*` appends the URL as it is to `webui/` and opens that path. It looks for no `..` in
it. Directories have no links here, and files are those the process may read.
-/

namespace NioevMqtt

open Paths

/-- `/` -/
def slash : UInt8 := 0x2F

/-- `.` -/
def dot : ByteString := [0x2E]

/-- `..` -/
def dotDot : ByteString := [0x2E, 0x2E]

/-- `webui` -/
def webui : ByteString := [0x77, 0x65, 0x62, 0x75, 0x69]

/-- A name that a file can have. -/
structure ValidName (name : ByteString) : Prop where
  ne_nil : name ≠ []
  noSlash : slash ∉ name
  noNull : 0 ∉ name
  ne_dot : name ≠ dot
  ne_dotDot : name ≠ dotDot

structure FileSystem where
  tree : DirectoryTree ByteString
  files : List ByteString → Option (List UInt8)
  inDirectory : ∀ place contents, files place = some contents →
    place ≠ [] ∧ tree.isDirectory place.tail = true
  validNames : ∀ place contents, files place = some contents → ∀ name ∈ place, ValidName name
  workingDirectory : List ByteString
  working : tree.isDirectory workingDirectory = true
  /-- The longest path that can be opened, with the zero at its end. -/
  pathMax : Nat

/-- What `std::ifstream` finds. A directory can be opened, but not read. -/
inductive Opened where
  | file (contents : List UInt8)
  | directory

/-- What a path component means. -/
def component (name : ByteString) : Component ByteString :=
  if name = [] ∨ name = dot then .here else if name = dotDot then .parent else .child name

/-- The components of a relative path. -/
def components (path : ByteString) : List (Component ByteString) :=
  (path.splitOn slash).map component

namespace FileSystem

/-- A relative path is a C string. -/
def ifstream (fs : FileSystem) (path : ByteString) : Option Opened :=
  let path := path.takeWhile (· ≠ 0)
  if path.length < fs.pathMax then
    (fs.tree.resolve (components path) fs.workingDirectory).bind fun place =>
      match fs.files place with
      | some contents => some (.file contents)
      | none => if fs.tree.isDirectory place then some .directory else none
  else none

end FileSystem

/-- A call on the response. -/
inductive ResponseCall where
  | writeStatus (status : String)
  | writeHeader (key value : String)
  | endText (text : String)
  | endData (data : List UInt8)
  /-- `end` with what the exception says. -/
  | endWhat
deriving DecidableEq

def ResponseCall.isEnd : ResponseCall → Bool
  | .endText _ | .endData _ | .endWhat => true
  | _ => false

/-- `".html"` -/
def dotHtml : ByteString := [0x2E, 0x68, 0x74, 0x6D, 0x6C]

variable [ScriptNames]

def contentType (fullFilePath : ByteString) : List ResponseCall :=
  let extension := ScriptNames.getFileExtension fullFilePath
  if extension = dotJs then [.writeHeader "Content-Type" "application/javascript"]
  else if extension = dotHtml then [.writeHeader "Content-Type" "text/html"]
  else []

/-- The file, as far as it can be opened and read. -/
def answerFile (fs : FileSystem) (fullFilePath : ByteString) : List ResponseCall :=
  match fs.ifstream fullFilePath with
  | none => [.writeStatus "404 Not Found", .endText "Not found"]
  | some (.file contents) => contentType fullFilePath ++ [.endData contents]
  -- Reading throws.
  | some .directory =>
    contentType fullFilePath ++ [.writeStatus "500 Internal Server Error", .endWhat]

/-- `GET /*`, where no other route takes the request. -/
def getFile (fs : FileSystem) : ByteString → List ResponseCall
  -- `substr(1)` throws.
  | [] => [.writeStatus "500 Internal Server Error", .endWhat]
  | _ :: path =>
    let redirect :=
      if path = [] then
        [.writeStatus "301 Moved Permanently", .writeHeader "Location" "index.html", .endText ""]
      else []
    redirect ++ answerFile fs (webui ++ slash :: path)

namespace FileSystem

variable {fs : FileSystem} {url : ByteString} {contents : List UInt8} {place : List ByteString}

omit [ScriptNames] in
/-- The part up to a zero is a path of its own. -/
theorem components_webui (path : ByteString) :
    components ((webui ++ slash :: path).takeWhile (· ≠ 0)) =
      .child webui :: components (path.takeWhile (· ≠ 0)) := by
  have hcut : (webui ++ slash :: path).takeWhile (· ≠ 0) =
      webui ++ slash :: path.takeWhile (· ≠ 0) := by
    simp [webui, slash]
  have hslash : slash ∉ webui := by decide
  rw [hcut, components, List.splitOn_append_cons_self_of_not_mem hslash, List.map_cons]
  rfl

/-- The components of the path in a URL. -/
def urlComponents (url : ByteString) : List (Component ByteString) :=
  components ((url.drop 1).takeWhile (· ≠ 0))

omit [ScriptNames] in
/-- A path below `webui/` leads on from there. -/
theorem resolve_webui (path : ByteString) :
    fs.tree.resolve (components ((webui ++ slash :: path).takeWhile (· ≠ 0)))
        fs.workingDirectory =
      fs.tree.resolve (components (path.takeWhile (· ≠ 0))) (webui :: fs.workingDirectory) := by
  rw [components_webui]
  show (if fs.tree.isDirectory fs.workingDirectory then _ else none) = _
  rw [if_pos fs.working]
  rfl

omit [ScriptNames] in
theorem ifstream_eq_file {path : ByteString} (h : fs.ifstream path = some (.file contents)) :
    ∃ place, fs.tree.resolve (components (path.takeWhile (· ≠ 0))) fs.workingDirectory = some place ∧
      fs.files place = some contents := by
  unfold ifstream at h
  simp only at h
  split at h
  · obtain ⟨place, hresolve, hplace⟩ := Option.bind_eq_some_iff.mp h
    refine ⟨place, hresolve, ?_⟩
    split at hplace
    · next found hfound =>
        cases hplace
        exact hfound
    · split at hplace
      · cases hplace
      · cases hplace
  · cases h

theorem endData_not_mem_contentType (path : ByteString) :
    .endData contents ∉ contentType path := by
  unfold contentType
  simp only
  split
  · simp
  · split
    · simp
    · simp

theorem endData_mem_answerFile {path : ByteString} :
    .endData contents ∈ answerFile fs path ↔ fs.ifstream path = some (.file contents) := by
  have hheader : .endData contents ∉ contentType path := endData_not_mem_contentType path
  unfold answerFile
  split
  · next hnone => simp [hnone]
  · next found hfound =>
      rw [hfound, List.mem_append, or_iff_right hheader, List.mem_singleton]
      simp [eq_comm]
  · next hfound =>
      rw [hfound, List.mem_append, or_iff_right hheader]
      simp

/-- Data comes from the file that is opened. -/
theorem ifstream_of_endData (h : .endData contents ∈ getFile fs url) :
    fs.ifstream (webui ++ slash :: url.drop 1) = some (.file contents) := by
  cases url with
  | nil => simp [getFile] at h
  | cons first path =>
      rcases List.mem_append.mp h with hredirect | hopened
      · split at hredirect
        · simp at hredirect
        · cases hredirect
      · exact endData_mem_answerFile.mp hopened

/-! ## A URL for every file -/

/-- Up to the root, and down to the file. -/
def urlOf (fs : FileSystem) (place : List ByteString) : ByteString :=
  slash :: [slash].intercalate
    (List.replicate (fs.workingDirectory.length + 1) dotDot ++ place.reverse)

omit [ScriptNames] in
theorem mem_intercalate {c : UInt8} {names : List ByteString}
    (h : c ∈ [slash].intercalate names) : c = slash ∨ ∃ name ∈ names, c ∈ name := by
  induction names with
  | nil => cases h
  | cons name names ih =>
      cases names with
      | nil =>
          rw [List.intercalate_singleton] at h
          exact .inr ⟨name, List.mem_singleton_self _, h⟩
      | cons name' names =>
          rw [List.intercalate_cons_cons] at h
          rcases List.mem_append.mp h with hfirst | hrest
          · rcases List.mem_append.mp hfirst with hname | hslash
            · exact .inr ⟨name, List.mem_cons_self, hname⟩
            · exact .inl (List.mem_singleton.mp hslash)
          · rcases ih hrest with hslash | ⟨later, hlater, hc⟩
            · exact .inl hslash
            · exact .inr ⟨later, List.mem_cons_of_mem _ hlater, hc⟩

omit [ScriptNames] in
theorem urlComponents_urlOf (hplace : ∀ name ∈ place, ValidName name) :
    urlComponents (fs.urlOf place) =
      climb (webui :: fs.workingDirectory).length ++ descend place := by
  have hnames : ∀ name ∈ List.replicate (fs.workingDirectory.length + 1) dotDot ++ place.reverse,
      slash ∉ name ∧ 0 ∉ name := by
    intro name hname
    rcases List.mem_append.mp hname with hup | hdown
    · rw [(List.mem_replicate.mp hup).2]
      decide
    · have hvalid := hplace name (List.mem_reverse.mp hdown)
      exact ⟨hvalid.noSlash, hvalid.noNull⟩
  have hnull : ((fs.urlOf place).drop 1).takeWhile (· ≠ 0) = (fs.urlOf place).drop 1 := by
    refine List.takeWhile_eq_self_iff.mpr fun c hc => ?_
    rcases mem_intercalate hc with rfl | ⟨name, hname, hmem⟩
    · decide
    · refine decide_eq_true fun hzero => (hnames name hname).2 ?_
      rwa [← hzero]
  rw [urlComponents, hnull, urlOf, List.drop_succ_cons, List.drop_zero, components,
    List.splitOn_intercalate slash (fun name hname => (hnames name hname).1) (by simp),
    List.map_append, List.map_replicate]
  refine congrArg₂ (· ++ ·) rfl (List.map_congr_left fun name hname => ?_)
  have hvalid := hplace name (List.mem_reverse.mp hname)
  unfold component
  rw [if_neg (not_or.mpr ⟨hvalid.ne_nil, hvalid.ne_dot⟩), if_neg hvalid.ne_dotDot]

theorem getFile_urlOf (hwebui : fs.tree.isDirectory (webui :: fs.workingDirectory) = true)
    (hplace : fs.files place = some contents)
    (hlength : webui.length + (fs.urlOf place).length < fs.pathMax) :
    .endData contents ∈ getFile fs (fs.urlOf place) := by
  obtain ⟨hne, hdirectory⟩ := fs.inDirectory place contents hplace
  obtain ⟨name, rest, rfl⟩ := List.exists_cons_of_ne_nil hne
  rw [List.tail_cons] at hdirectory
  have hopens : fs.ifstream (webui ++ fs.urlOf (name :: rest)) = some (.file contents) := by
    have hshort : ((webui ++ fs.urlOf (name :: rest)).takeWhile (· ≠ 0)).length < fs.pathMax := by
      refine (List.takeWhile_prefix _).length_le.trans_lt ?_
      rwa [List.length_append]
    have hpath : components (((fs.urlOf (name :: rest)).drop 1).takeWhile (· ≠ 0)) = _ :=
      urlComponents_urlOf (fs.validNames _ _ hplace)
    unfold ifstream
    simp only [if_pos hshort]
    rw [show webui ++ fs.urlOf (name :: rest) =
      webui ++ slash :: (fs.urlOf (name :: rest)).drop 1 from rfl, resolve_webui, hpath,
      resolve_climb_descend hwebui hdirectory, Option.bind_some]
    simp only [hplace]
  exact List.mem_append_right _ (endData_mem_answerFile.mpr hopens)

theorem countP_isEnd_answerFile (fs : FileSystem) (path : ByteString) :
    (answerFile fs path).countP ResponseCall.isEnd = 1 := by
  have hheader : (contentType path).countP ResponseCall.isEnd = 0 := by
    unfold contentType
    simp only
    split
    · rfl
    · split
      · rfl
      · rfl
  unfold answerFile
  split
  · rfl
  · rw [List.countP_append, hheader]
    rfl
  · rw [List.countP_append, hheader]
    rfl

/-- `GET` ends the response once. For the root it does so with the redirect, and goes on. -/
theorem countP_isEnd_getFile (fs : FileSystem) (url : ByteString) :
    (getFile fs url).countP ResponseCall.isEnd = if url.length = 1 then 2 else 1 := by
  cases url with
  | nil => rfl
  | cons first path =>
      rw [getFile, List.countP_append, countP_isEnd_answerFile]
      cases path with
      | nil => rfl
      | cons second path => simp

/-- A URL that has nowhere more `..` than names before them gets files of the web interface
only. But every file that can be read is at some URL. -/
theorem getFile_reads (hwebui : fs.tree.isDirectory (webui :: fs.workingDirectory) = true) :
    (∀ url contents, StaysBelow 0 (urlComponents url) → .endData contents ∈ getFile fs url →
      ∃ inner, fs.files (inner ++ webui :: fs.workingDirectory) = some contents) ∧
    (∀ place contents, fs.files place = some contents →
      webui.length + (fs.urlOf place).length < fs.pathMax →
        .endData contents ∈ getFile fs (fs.urlOf place)) ∧
    ∀ url, (getFile fs url).countP ResponseCall.isEnd = 1 ↔ url.length ≠ 1 := by
  refine ⟨fun url contents hbelow hdata => ?_, fun place contents => getFile_urlOf hwebui,
    fun url => ?_⟩
  · obtain ⟨place, hresolve, hplace⟩ := ifstream_eq_file (ifstream_of_endData hdata)
    rw [resolve_webui] at hresolve
    obtain ⟨inner, rfl⟩ := resolve_below hbelow (List.suffix_refl _) rfl hresolve
    exact ⟨inner, hplace⟩
  · rw [countP_isEnd_getFile]
    split
    · next hone => exact iff_of_false (by decide) (not_not.mpr hone)
    · next hother => exact iff_of_true rfl hother

/-- `/etc`, `/srv` and `/srv/webui`. -/
def servedTree : DirectoryTree ByteString where
  isDirectory place :=
    decide (place ∈ [[], [[0x65, 0x74, 0x63]], [[0x73, 0x72, 0x76]], [webui, [0x73, 0x72, 0x76]]])
  root := by decide
  parent := by
    intro name place h
    rcases List.mem_cons.mp (of_decide_eq_true h) with hroot | hmem
    · cases hroot
    rcases List.mem_cons.mp hmem with hetc | hmem
    · cases hetc
      decide
    rcases List.mem_cons.mp hmem with hsrv | hmem
    · cases hsrv
      decide
    cases List.mem_singleton.mp hmem
    decide

/-- `/etc/passwd` -/
def passwd : List ByteString := [[0x70, 0x61, 0x73, 0x73, 0x77, 0x64], [0x65, 0x74, 0x63]]

/-- `/srv/webui/a` -/
def page : List ByteString := [[0x61], webui, [0x73, 0x72, 0x76]]

def servedFiles (place : List ByteString) : Option (List UInt8) :=
  if place = passwd then some [0x78] else if place = page then some [0x68] else none

omit [ScriptNames] in
theorem servedFiles_cases (h : servedFiles place = some contents) : place = passwd ∨ place = page := by
  unfold servedFiles at h
  split at h
  · next hplace => exact .inl hplace
  · split at h
    · next hplace => exact .inr hplace
    · cases h

/-- The broker runs in `/srv`. -/
def served : FileSystem where
  tree := servedTree
  files := servedFiles
  inDirectory := by
    intro place contents h
    rcases servedFiles_cases h with rfl | rfl
    · decide
    · decide
  validNames := by
    intro place contents h name hname
    have hvalid : name ≠ [] ∧ slash ∉ name ∧ 0 ∉ name ∧ name ≠ dot ∧ name ≠ dotDot := by
      rcases servedFiles_cases h with rfl | rfl
      · revert name
        decide
      · revert name
        decide
    exact ⟨hvalid.1, hvalid.2.1, hvalid.2.2.1, hvalid.2.2.2.1, hvalid.2.2.2.2⟩
  workingDirectory := [[0x73, 0x72, 0x76]]
  working := by decide
  pathMax := 4096

omit [ScriptNames] in
/-- `/./a` is a file of the web interface, and `/../../etc/passwd` is none. -/
theorem getFile_reads_served :
    (∃ inner, served.files (inner ++ webui :: served.workingDirectory) = some [0x68]) ∧
      .endData [0x78] ∈ @getFile .standard served (served.urlOf passwd) ∧
      (@getFile .standard served [slash]).countP ResponseCall.isEnd ≠ 1 := by
  obtain ⟨hbelow, hevery, honce⟩ := @getFile_reads .standard served (by decide)
  refine ⟨hbelow [0x2F, 0x2E, 0x2F, 0x61] [0x68] (by decide +kernel) (by decide +kernel),
    hevery _ _ (by decide +kernel) (by decide +kernel), fun hone => (honce [slash]).mp hone rfl⟩

end FileSystem

end NioevMqtt
