import Mathlib.Logic.Function.Basic
import Popsicle.Foundation.Streaming
import Popsicle.Node.Ranges

/-!
# How a file is fetched

`need_download` and `download_sdk`: the node looks whether the file of an application is on
its disk and has the registered hash, and gets it from a server otherwise.  The server, the
operating system and the hash function are parameters.
-/

namespace Popsicle.Node

open Foundation Exec

/-! ## The disk -/

/-- The disk of a node: the file a path leads to, and what the files hold. -/
structure Disk (File : Type) where
  locate : String → File
  holds : File → Option Bytes

namespace Disk

variable {File : Type}

/-- What the file at a path holds, if there is one. -/
def content (disk : Disk File) (path : String) : Option Bytes := disk.holds (disk.locate path)

variable [DecidableEq File]

/-- Let the file at a path hold the given bytes. -/
def put (disk : Disk File) (path : String) (bytes : Bytes) : Disk File :=
  { disk with holds := Function.update disk.holds (disk.locate path) (some bytes) }

/-- Open an empty file for writing. -/
def create (disk : Disk File) (path : String) : Disk File := disk.put path []

/-- Write to the end of a file. -/
def append (disk : Disk File) (path : String) (bytes : Bytes) : Disk File :=
  disk.put path ((disk.content path).getD [] ++ bytes)

end Disk

/-- Code that reads and writes files. -/
abbrev FileM (File : Type) := Exec (Disk File) Stop

/-! ## Answers -/

/-- What is written of a body, and whether it gets to its end. -/
structure Body where
  bytes : Bytes
  complete : Bool

/-- The answer to a `HEAD` request. -/
structure HeadReply where
  contentLength : Option Bytes
  text : Except Stop Body

/-- The answer to a `GET` request. -/
structure Reply where
  status : Nat
  body : Body

/-- How a server answers: to `HEAD` with an address, and to the `GET` requests of a download,
which are numbered, with an address and the range. -/
structure Server where
  head : String → Except Stop HeadReply
  get : Nat → String → String → Except Stop Reply

/-- How the calls to the operating system end. -/
structure FileAnswers where
  opened : Bool
  reads : List (Except Unit Nat)
  dirExists : Bool
  dirCreated : Bool
  client : Bool
  created : Bool
  permitted : Bool
  openedAgain : Bool
  readsAgain : List (Except Unit Nat)

/-- All calls succeed. -/
def FileAnswers.success : FileAnswers where
  opened := true
  reads := []
  dirExists := true
  dirCreated := true
  client := true
  created := true
  permitted := true
  openedAgain := true
  readsAgain := []

/-! ## `sha256_digest` -/

/-- SHA-256 of bytes, taken piece by piece. -/
abbrev Sha256 (Context : Type) := Streamed Context UInt8 Bytes

/-- The size of the buffer. -/
def digestBuffer : Nat := 1024

variable {Context File : Type}

/-- Read until nothing is left. -/
def digestLoop (sha256 : Sha256 Context) (reader : Reader Unit UInt8) (context : Context) :
    Except Stop Bytes :=
  match _isRead : reader.read digestBuffer with
  | .error _ => .error .error
  | .ok (piece, rest) =>
      if _isEmpty : piece = [] then .ok (sha256.finish context)
      else digestLoop sha256 rest (sha256.update context piece)
termination_by reader.left.length
decreasing_by exact Reader.length_left_lt (by decide) _isRead _isEmpty

def sha256Digest (sha256 : Sha256 Context) (reader : Reader Unit UInt8) : Except Stop Bytes :=
  digestLoop sha256 reader sha256.new

/-! ## `need_download` -/

/-- The digest of the file at a path, if it can be opened and read. -/
def fileDigest (sha256 : Sha256 Context) (path : String) (reads : List (Except Unit Nat)) :
    FileM File Bytes := do
  let content ← require ((← read).content path) .error
  ofExcept (sha256Digest sha256 { left := content, grants := reads })

/-- Whether the file at a path is to be downloaded. -/
def fileNeeded (sha256 : Sha256 Context) (path : String) (appHash : Bytes)
    (answers : FileAnswers) : FileM File Bool := do
  if answers.opened ∧ ((← read).content path).isSome then
    let digest ← fileDigest sha256 path answers.reads
    return digest ≠ appHash
  else
    return true

/-! ## `download_sdk` -/

/-- `HeaderValue::to_str`: the text of a header, if all of it is visible ASCII. -/
def headerText (value : Bytes) : Option (List Char) :=
  if value.all fun byte => decide (32 ≤ byte ∧ byte < 127 ∨ byte = 9) then
    some (value.map fun byte => Char.ofNat byte.toNat)
  else none

/-- One digit more of a number, if it is a digit and the number stays a `u64`. -/
def pushDigit (value : Nat) (digit : Char) : Option Nat :=
  if digit.isDigit ∧ 10 * value + (digit.toNat - 48) ≤ u64Max then
    some (10 * value + (digit.toNat - 48))
  else none

/-- `u64::from_str`: digits after an optional plus. -/
def u64FromStr (text : List Char) : Option Nat :=
  let digits := if text.head? = some '+' then text.tail else text
  if digits = [] then none else digits.foldlM pushDigit 0

def statusOk : Nat := 200

def statusPartialContent : Nat := 206

/-- Ask for one range after the other and write what is sent, until the server answers with
another status; nothing if the fuel runs out. -/
def fetchRanges [DecidableEq File] (overflowChecks : Bool) (server : Server)
    (webPath downloadPath : String) :
    Nat → Nat → PartialRangeIter → FileM File (Option Unit)
  | 0, _, _ => return none
  | fuel + 1, index, iter => do
      match ← ofExcept (iter.next overflowChecks) with
      | (none, _) => return some ()
      | (some range, rest) =>
          let response ← ofExcept (server.get index webPath (headerValue range))
          if response.status = statusOk ∨ response.status = statusPartialContent then
            write (·.append downloadPath response.body.bytes)
            ensure response.body.complete .error
            fetchRanges overflowChecks server webPath downloadPath fuel (index + 1) rest
          else
            return some ()

/-- Where the node keeps the file of an application. -/
def programPath (directory fileName : String) : String := s!"{directory}/sdk/{fileName}"

/-- Write down the text of the answer to `HEAD` as well, and check the hash of the file. -/
def checkDownload [DecidableEq File] (sha256 : Sha256 Context) (downloadPath : String)
    (appHash : Bytes) (response : HeadReply) (answers : FileAnswers) : FileM File Unit := do
  let content ← ofExcept response.text
  write (·.append downloadPath content.bytes)
  ensure content.complete .error
  ensure answers.permitted .error
  ensure answers.openedAgain .error
  let digest ← fileDigest sha256 downloadPath answers.readsAgain
  ensure (digest = appHash) .error

/-- Download the file of an application and check its hash; nothing if the fuel runs out. -/
def downloadSdk [DecidableEq File] (sha256 : Sha256 Context) (overflowChecks : Bool)
    (dataPath : Bytes) (appInfo : DownloadInfo) (url : String) (server : Server)
    (answers : FileAnswers) (fuel : Nat) : FileM File (Option Unit) := do
  let directory ← require (fromUtf8 dataPath) .error
  ensure (answers.dirExists ∨ answers.dirCreated) .error
  ensure answers.client .panic
  let fileName ← require (fromUtf8 appInfo.fileName) .error
  let webPath := s!"{url}/{fileName}"
  let response ← ofExcept (server.head webPath)
  let length ← require response.contentLength .error
  let length ← require (headerText length) .error
  let length ← require (u64FromStr length) .error
  let downloadPath := programPath directory fileName
  ensure answers.created .error
  write (·.create downloadPath)
  let last ← ofExcept (u64Result overflowChecks ((length : Nat) - 1))
  let iter ← ofExcept ((PartialRangeIter.new 0 last chunkSize).mapError fun _ => .panic)
  match ← fetchRanges overflowChecks server webPath downloadPath fuel 0 iter with
  | none => return none
  | some () => do
      checkDownload sha256 downloadPath appInfo.appHash response answers
      return some ()

/-! ## `process_download_task` -/

/-- The value of a body that ends with one, and nothing if it ends with an error. -/
def attemptFile {α : Type} (body : FileM File α) : FileM File (Option α) :=
  handle (do return some (← body)) fun
    | .error => return none
    | .panic => fail .panic

/-- Whether the file of an application is there, once it is downloaded where it is not; nothing
if the fuel runs out. -/
def fetchFile [DecidableEq File] (sha256 : Sha256 Context) (overflowChecks : Bool)
    (dataPath : Bytes) (appInfo : DownloadInfo) (server : Server) (answers : FileAnswers)
    (fuel : Nat) : FileM File (Option Bool) := do
  let url ← require (fromUtf8 appInfo.url) .error
  let directory ← require (fromUtf8 dataPath) .error
  let fileName ← require (fromUtf8 appInfo.fileName) .error
  let downloadPath := programPath directory fileName
  match ← attemptFile (fileNeeded sha256 downloadPath appInfo.appHash answers) with
  | some true =>
      match ← attemptFile (downloadSdk sha256 overflowChecks dataPath appInfo url server answers
        fuel) with
      | some (some ()) => return some true
      | some none => return none
      | none => return some false
  | some false => return some true
  | none => return some false

end Popsicle.Node
