import Popsicle.Node.Transfers

/-!
# Files that are fetched

A node fetches the file of an application unless it has it.  A server that honours ranges
gives it exactly its file.  No server makes it accept a file with another hash, or harm the
one it has.
-/

namespace Popsicle.Node

open Foundation Exec

variable {Context File : Type} {sha256 : Sha256 Context} {overflowChecks : Bool}
  {dataPath : Bytes} {appInfo : DownloadInfo} {url : String} {server : Server}
  {answers : FileAnswers} {directory fileName : String} {file : Bytes} {fuel : Nat}
  {disk : Disk File} {path : String}

/-! ## Files with a hash -/

/-- The file at a path has the given hash. -/
def Hashed (sha256 : Sha256 Context) (disk : Disk File) (path : String) (hash : Bytes) : Prop :=
  ∃ content, disk.content path = some content ∧ sha256.value content = hash

/-- Files are opened where they are, and read to their ends. -/
structure Openable (answers : FileAnswers) : Prop where
  opened : answers.opened
  reads : Readings answers.reads

/-- A file is looked at and left alone; one with the hash is not needed. -/
theorem ends_fileNeeded (sha256 : Sha256 Context) (disk : Disk File) (path : String)
    (hash : Bytes) (answers : FileAnswers) :
    (fileNeeded sha256 path hash answers).Ends disk
      (fun needed after => after = disk ∧ (needed = false → Hashed sha256 disk path hash) ∧
        (Hashed sha256 disk path hash → answers.opened → needed = false))
      fun stop after => stop = .error ∧ after = disk ∧ ¬Readings answers.reads := by
  rw [fileNeeded, ends_bind, ends_read, ends_ite]
  constructor
  · rintro ⟨_, isThere⟩
    rw [ends_bind]
    refine (ends_fileDigest sha256 disk path answers.reads).mono ?_ ?_
    · rintro digest after ⟨⟨content, isContent, isDigest⟩, same⟩
      refine ⟨same, fun notNeeded => ⟨content, isContent, ?_⟩, ?_⟩
      · rw [← isDigest]
        simpa using notNeeded
      · rintro ⟨other, isOther, isHash⟩ _
        cases isContent.symm.trans isOther
        simp [isDigest, isHash]
    · rintro stop after ⟨isError, missing | fails, same⟩
      · rw [missing] at isThere
        cases isThere
      · exact ⟨isError, same, fails⟩
  · intro closed
    refine ⟨rfl, by rintro ⟨⟩, ?_⟩
    rintro ⟨content, isContent, _⟩ opened
    exact absurd ⟨opened, by simp [isContent]⟩ closed

theorem exists_fileNeeded (sha256 : Sha256 Context) (disk : Disk File) (path : String)
    (hash : Bytes) (openable : Openable answers) :
    ∃ needed, fileNeeded sha256 path hash answers disk = (.ok needed, disk) ∧
      (needed = false ↔ Hashed sha256 disk path hash) := by
  have ends := ends_fileNeeded sha256 disk path hash answers
  rcases ended : fileNeeded sha256 path hash answers disk with ⟨stop | needed, after⟩
  · exact absurd openable.reads (ends.of_error ended).2.2
  · obtain ⟨rfl, hashed, notNeeded⟩ := ends.of_ok ended
    exact ⟨needed, rfl, hashed, fun isHashed => notNeeded isHashed openable.opened⟩

section Attempts

variable {α : Type} {body : FileM File α}

@[simp] theorem ends_attemptFile {post : Option α → Disk File → Prop}
    {excuse : Stop → Disk File → Prop} :
    (attemptFile body).Ends disk post excuse ↔
      body.Ends disk (fun value => post (some value)) fun stop after =>
        match stop with
        | .error => post none after
        | .panic => excuse .panic after := by
  rw [attemptFile, ends_handle, ends_bind]
  constructor <;> refine fun ends => ends.mono (fun _ _ => id) fun stop after excused => ?_ <;>
    cases stop <;> exact excused

theorem attemptFile_of_ok {value : α} {after : Disk File} (ended : body disk = (.ok value, after)) :
    attemptFile body disk = (.ok (some value), after) := by
  rw [attemptFile, handle, bind_of_ok ended]
  rfl

theorem attemptFile_of_error {after : Disk File} (ended : body disk = (.error .error, after)) :
    attemptFile body disk = (.ok none, after) := by
  rw [attemptFile, handle, bind_of_error ended]
  rfl

end Attempts

section FetchFile

variable [DecidableEq File]

/-- Whatever the server does, only the file of the application is written, and not at all if it
has the hash.  It has the hash if the application can be started. -/
theorem ends_fetchFile (isDirectory : fromUtf8 dataPath = some directory)
    (isFileName : fromUtf8 appInfo.fileName = some fileName) :
    let path := programPath directory fileName
    (fetchFile sha256 overflowChecks dataPath appInfo server answers fuel).Ends disk
      (fun done after => OnlyAt path disk after ∧
        (done = some true → Hashed sha256 after path appInfo.appHash) ∧
        (Hashed sha256 disk path appInfo.appHash → answers.opened → after = disk))
      fun _ after => OnlyAt path disk after ∧
        (Hashed sha256 disk path appInfo.appHash → answers.opened → after = disk) := by
  intro path
  have same := OnlyAt.refl path disk
  simp only [fetchFile, isDirectory, isFileName, ends_bind, ends_require, ends_attemptFile,
    Option.some.injEq, forall_eq', reduceCtorEq, IsEmpty.forall_iff, and_true]
  refine ⟨fun url _ => ?_, fun _ => ⟨same, fun _ _ => trivial⟩⟩
  refine (ends_fileNeeded sha256 disk path appInfo.appHash answers).mono ?_ ?_
  · rintro needed after ⟨rfl, hashed, notNeeded⟩
    cases needed with
    | false => exact ⟨same, fun _ => hashed rfl, fun _ _ => rfl⟩
    | true =>
        have apart : Hashed sha256 after path appInfo.appHash → answers.opened → False := by
          intro hashed opened
          cases notNeeded hashed opened
        simp only [ends_bind, ends_attemptFile]
        refine (ends_downloadSdk isDirectory isFileName after).mono ?_ ?_
        · rintro (_ | _) last ⟨only, succeeds⟩
          · exact ⟨only, by rintro ⟨⟩, fun hashed opened => (apart hashed opened).elim⟩
          · exact ⟨only, fun _ => succeeds rfl, fun hashed opened => (apart hashed opened).elim⟩
        · rintro (_ | _) last only
          · exact ⟨only, by rintro ⟨⟩, fun hashed opened => (apart hashed opened).elim⟩
          · exact ⟨only, fun hashed opened => (apart hashed opened).elim⟩
  · rintro stop after ⟨rfl, rfl, _⟩
    exact ⟨same, by rintro ⟨⟩, fun _ _ => rfl⟩

theorem fetchFile_of_hashed (isUrl : fromUtf8 appInfo.url = some url)
    (isDirectory : fromUtf8 dataPath = some directory)
    (isFileName : fromUtf8 appInfo.fileName = some fileName) (openable : Openable answers)
    (hashed : Hashed sha256 disk (programPath directory fileName) appInfo.appHash) :
    fetchFile sha256 overflowChecks dataPath appInfo server answers fuel disk =
      (.ok (some true), disk) := by
  obtain ⟨needed, isNeeded, iff⟩ := exists_fileNeeded sha256 disk
    (programPath directory fileName) appInfo.appHash openable
  rw [iff.mpr hashed] at isNeeded
  rw [fetchFile, isUrl, isDirectory, isFileName]
  refine (bind_of_ok rfl).trans ?_
  refine (bind_of_ok rfl).trans ?_
  refine (bind_of_ok rfl).trans ?_
  exact (bind_of_ok (attemptFile_of_ok isNeeded)).trans rfl

theorem fetchFile_of_not_hashed (isUrl : fromUtf8 appInfo.url = some url)
    (isDirectory : fromUtf8 dataPath = some directory)
    (isFileName : fromUtf8 appInfo.fileName = some fileName) (openable : Openable answers)
    (notHashed : ¬Hashed sha256 disk (programPath directory fileName) appInfo.appHash)
    {after : Disk File} {hashed : Prop} [Decidable hashed]
    (downloaded : downloadSdk sha256 overflowChecks dataPath appInfo url server answers fuel disk =
      (if hashed then .ok (some ()) else .error .error, after)) :
    fetchFile sha256 overflowChecks dataPath appInfo server answers fuel disk =
      (.ok (some (decide hashed)), after) := by
  obtain ⟨needed, isNeeded, iff⟩ := exists_fileNeeded sha256 disk
    (programPath directory fileName) appInfo.appHash openable
  have isTrue : needed = true := by
    cases needed with
    | true => rfl
    | false => exact absurd (iff.mp rfl) notHashed
  rw [isTrue] at isNeeded
  rw [fetchFile, isUrl, isDirectory, isFileName]
  refine (bind_of_ok rfl).trans ?_
  refine (bind_of_ok rfl).trans ?_
  refine (bind_of_ok rfl).trans ?_
  refine (bind_of_ok (attemptFile_of_ok isNeeded)).trans ?_
  split at downloaded
  · rename_i holds
    rw [decide_eq_true holds]
    exact (bind_of_ok (attemptFile_of_ok downloaded)).trans rfl
  · rename_i fails
    rw [decide_eq_false fails]
    exact (bind_of_ok (attemptFile_of_error downloaded)).trans rfl

/-- From a server that honours ranges, the file is fetched exactly, whatever was left of it
before, and accepted if it has the hash.  Then it is never fetched again. -/
theorem fetches_exactly (isUrl : fromUtf8 appInfo.url = some url)
    (isDirectory : fromUtf8 dataPath = some directory)
    (isFileName : fromUtf8 appInfo.fileName = some fileName)
    (serves : Serves server s!"{url}/{fileName}" file) (positive : 0 < file.length)
    (fits : file.length ≤ u64Max) (works : Works answers) (openable : Openable answers)
    (enough : file.length < fuel)
    (notHashed : ¬Hashed sha256 disk (programPath directory fileName) appInfo.appHash) :
    let after := disk.put (programPath directory fileName) file
    fetchFile sha256 overflowChecks dataPath appInfo server answers fuel disk =
        (.ok (some (decide (sha256.value file = appInfo.appHash))), after) ∧
      (sha256.value file = appInfo.appHash →
        ∀ (other : Server) (laterAnswers : FileAnswers) (laterFuel : Nat), Openable laterAnswers →
          fetchFile sha256 overflowChecks dataPath appInfo other laterAnswers laterFuel after =
            (.ok (some true), after)) := by
  intro after
  obtain ⟨ranges, collected, tiles⟩ :=
    exists_collect overflowChecks positive fits enough
  have isReceived := serves.received_eq tiles rfl 0
  rw [List.drop_zero] at isReceived
  have downloaded := downloadSdk_eq sha256 isDirectory isFileName works serves.head positive fits
    collected isReceived disk
  refine ⟨fetchFile_of_not_hashed isUrl isDirectory isFileName openable notHashed downloaded, ?_⟩
  intro isHash other laterAnswers laterFuel laterOpenable
  exact fetchFile_of_hashed isUrl isDirectory isFileName laterOpenable
    ⟨file, content_put, isHash⟩

/-- SHA-256 of `abc`, and nothing of other bytes. -/
def abcSha256 : Sha256 Bytes where
  new := []
  update context bytes := context ++ bytes
  finish bytes :=
    if bytes = [97, 98, 99] then
      [0xba, 0x78, 0x16, 0xbf, 0x8f, 0x01, 0xcf, 0xea, 0x41, 0x41, 0x40, 0xde, 0x5d, 0xae, 0x22,
        0x23, 0xb0, 0x03, 0x61, 0xa3, 0x96, 0x17, 0x7a, 0x9c, 0xb4, 0x10, 0xff, 0x61, 0xf2, 0x00,
        0x15, 0xad]
    else []
  update_nil := List.append_nil
  update_append context left right := (List.append_assoc context left right).symm

/-- An application that is the file `abc`. -/
def abcInfo : DownloadInfo where
  appId := 1
  appHash := abcSha256.value [97, 98, 99]
  fileName := [97]
  size := 3
  group := 1
  url := [104]
  args := none
  log := none
  isDockerImage := false
  dockerImage := none

/-- A disk without files. -/
def emptyDisk : Disk String where
  locate := id
  holds _ := none

theorem success_works : Works .success where
  dir := .inl rfl
  client := rfl
  created := rfl
  permitted := rfl
  openedAgain := rfl
  readsAgain := List.not_mem_nil

theorem success_openable : Openable .success where
  opened := rfl
  reads := List.not_mem_nil

/-- The file `abc` is fetched in one range. -/
theorem fetches_exactly_abc :
    fetchFile abcSha256 true [47] abcInfo (.static [97, 98, 99]) .success 4 emptyDisk =
      (.ok (some true), emptyDisk.put (programPath "/" "a") [97, 98, 99]) := by
  have isUrl : fromUtf8 abcInfo.url = some "h" := by decide +kernel
  have isDirectory : fromUtf8 [47] = some "/" := by decide +kernel
  have isFileName : fromUtf8 abcInfo.fileName = some "a" := by decide +kernel
  have missing : ¬Hashed abcSha256 emptyDisk (programPath "/" "a") abcInfo.appHash := by
    rintro ⟨_, ⟨⟩, _⟩
  exact (fetches_exactly isUrl isDirectory isFileName (static_serves (by decide) _) (by decide)
    (by decide) success_works success_openable (by decide) missing).1

/-- A server that does not know ranges is asked for every range and sends the file each time.
So the node has the file only if it is no longer than one range. -/
theorem fetches_copies (isUrl : fromUtf8 appInfo.url = some url)
    (isDirectory : fromUtf8 dataPath = some directory)
    (isFileName : fromUtf8 appInfo.fileName = some fileName)
    (ignores : IgnoresRanges server s!"{url}/{fileName}" file) (positive : 0 < file.length)
    (fits : file.length ≤ u64Max) (works : Works answers) (openable : Openable answers)
    (enough : file.length < fuel)
    (notHashed : ¬Hashed sha256 disk (programPath directory fileName) appInfo.appHash) :
    let requests := (file.length + (chunkSize - 1)) / chunkSize
    let copies := (List.replicate requests file).flatten
    (∃ ranges, PartialRangeIter.collect overflowChecks fuel ⟨0, file.length - 1, chunkSize⟩ =
        .ok (some ranges) ∧ ranges.length = requests) ∧
      fetchFile sha256 overflowChecks dataPath appInfo server answers fuel disk =
          (.ok (some (decide (sha256.value copies = appInfo.appHash))),
            disk.put (programPath directory fileName) copies) ∧
      (copies = file ↔ file.length ≤ chunkSize) := by
  intro requests copies
  obtain ⟨ranges, collected, _⟩ :=
    exists_collect overflowChecks positive fits enough
  have isLength := length_collect (by dsimp only; omega) (by exact Nat.succ_pos _) collected
  have isReceived := ignores.received_eq ranges 0
  dsimp only at isLength
  rw [Nat.sub_zero, Nat.sub_add_cancel positive] at isLength
  rw [isLength] at isReceived
  have downloaded := downloadSdk_eq sha256 isDirectory isFileName works ignores.head positive fits
    collected isReceived disk
  refine ⟨⟨ranges, collected, isLength⟩,
    fetchFile_of_not_hashed isUrl isDirectory isFileName openable notHashed downloaded, ?_⟩
  have size : 0 < chunkSize := by decide
  constructor
  · intro same
    have lengths := congrArg List.length same
    simp only [copies, requests, List.length_flatten, List.map_replicate,
      List.sum_replicate_nat] at lengths
    have one : (file.length + (chunkSize - 1)) / chunkSize = 1 :=
      Nat.eq_of_mul_eq_mul_right positive (by omega)
    have below : file.length + (chunkSize - 1) < 2 * chunkSize :=
      (Nat.div_lt_iff_lt_mul size).mp (by omega)
    omega
  · intro isShort
    have one : (file.length + (chunkSize - 1)) / chunkSize = 1 := by
      rw [Nat.div_eq_iff size]
      omega
    simp [copies, requests, one]

/-- SHA-256 of the letter `a` as often as one more than a range holds, and of twice that. -/
def longSha256 : Sha256 Bytes where
  new := []
  update context bytes := context ++ bytes
  finish bytes :=
    if bytes.length = chunkSize + 1 then
      [0x17, 0xa9, 0x8f, 0x04, 0x00, 0xd7, 0xa0, 0xc1, 0xce, 0xd6, 0x91, 0xdc, 0xc7, 0xbc, 0x4b,
        0xfa, 0x57, 0x5f, 0xae, 0x5e, 0x9c, 0x07, 0xcc, 0xc0, 0x99, 0x44, 0x4e, 0x8d, 0x83, 0x3d,
        0x34, 0xf4]
    else if bytes.length = 2 * (chunkSize + 1) then
      [0xbd, 0x50, 0x49, 0x50, 0x74, 0xb4, 0xb5, 0x7d, 0xf7, 0x4e, 0x18, 0xa1, 0xb0, 0xd2, 0x80,
        0xc8, 0x8f, 0x16, 0x8c, 0xeb, 0x98, 0x58, 0x2e, 0xd1, 0xde, 0xb1, 0x0c, 0x12, 0x4f, 0xf2,
        0x2c, 0x97]
    else []
  update_nil := List.append_nil
  update_append context left right := (List.append_assoc context left right).symm

theorem longSha256_copies {file : Bytes} (length : file.length = chunkSize + 1) :
    longSha256.value (file ++ file) ≠ longSha256.value file := by
  have twice : 2 * (chunkSize + 1) ≠ chunkSize + 1 := by omega
  have doubled : (file ++ file).length = 2 * (chunkSize + 1) := by
    rw [List.length_append, length]
    omega
  simp only [Streamed.value, longSha256, List.nil_append, doubled, length, twice, if_true, if_false]
  decide

/-- A server that sends the whole file whatever it is asked for. -/
def Server.whole (file : Bytes) : Server where
  head _ := .ok (.announces file)
  get _ _ _ := .ok { status := statusOk, body := { bytes := file, complete := true } }

/-- A file that is one byte longer than a range is asked for twice, and not accepted. -/
theorem fetches_copies_twice :
    ∃ (file : Bytes) (fuel : Nat), file.length = chunkSize + 1 ∧
      let appInfo := { abcInfo with appHash := longSha256.value file }
      (∃ ranges, PartialRangeIter.collect true fuel ⟨0, file.length - 1, chunkSize⟩ =
          .ok (some ranges) ∧ ranges.length = 2) ∧
        fetchFile longSha256 true [47] appInfo (.whole file) .success fuel emptyDisk =
          (.ok (some false), emptyDisk.put (programPath "/" "a") (file ++ file)) := by
  obtain ⟨file, length⟩ : ∃ file : Bytes, file.length = chunkSize + 1 :=
    ⟨List.replicate (chunkSize + 1) 97, List.length_replicate⟩
  refine ⟨file, file.length + 1, length, ?_⟩
  intro appInfo
  have isUrl : fromUtf8 appInfo.url = some "h" := by
    change fromUtf8 abcInfo.url = some "h"
    decide +kernel
  have isDirectory : fromUtf8 [47] = some "/" := by decide +kernel
  have isFileName : fromUtf8 appInfo.fileName = some "a" := by
    change fromUtf8 abcInfo.fileName = some "a"
    decide +kernel
  have missing : ¬Hashed longSha256 emptyDisk (programPath "/" "a") appInfo.appHash := by
    rintro ⟨_, ⟨⟩, _⟩
  have ignores : ∀ address, IgnoresRanges (.whole file) address file :=
    fun _ => ⟨rfl, fun _ _ => rfl⟩
  have size : chunkSize = 1024000 := rfl
  have positive : 0 < file.length := by omega
  have fits : file.length ≤ u64Max := by
    rw [length]
    decide
  obtain ⟨requested, fetched, _⟩ := fetches_copies isUrl isDirectory
    isFileName (ignores _) positive fits success_works success_openable (Nat.lt_succ_self _)
    missing
  have twice : (file.length + (chunkSize - 1)) / chunkSize = 2 := by
    rw [length, size]
  rw [twice] at requested fetched
  have copies : (List.replicate 2 file).flatten = file ++ file := by
    simp [List.replicate_succ]
  have refused : longSha256.value (file ++ file) ≠ appInfo.appHash := longSha256_copies length
  rw [copies, decide_eq_false refused] at fetched
  exact ⟨requested, fetched⟩

end FetchFile

end Popsicle.Node
