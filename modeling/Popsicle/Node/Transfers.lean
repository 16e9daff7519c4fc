import Popsicle.Node.Headers
import Popsicle.Node.Outcomes

/-!
# What downloads leave on the disk

A download writes down what the server sends, one range after the other, and then compares
the hash of the file.  What it leaves is worked out here for any server, and compared with the
file of a server that honours ranges and of one that does not know them.
-/

namespace Popsicle.Node

open Foundation Exec

/-! ## Files -/

section Disk

variable {File : Type} {disk after : Disk File} {path : String} {bytes more : Bytes}

/-- Nothing but the file at a path is written. -/
structure OnlyAt (path : String) (disk after : Disk File) : Prop where
  locate : after.locate = disk.locate
  holds : ∀ file, file ≠ disk.locate path → after.holds file = disk.holds file

theorem OnlyAt.refl (path : String) (disk : Disk File) : OnlyAt path disk disk :=
  ⟨rfl, fun _ _ => rfl⟩

variable [DecidableEq File]

@[simp] theorem content_put : (disk.put path bytes).content path = some bytes := by
  simp [Disk.put, Disk.content]

@[simp] theorem put_put : (disk.put path bytes).put path more = disk.put path more := by
  simp [Disk.put]

@[simp] theorem put_create : (disk.create path).put path bytes = disk.put path bytes := by
  simp [Disk.create]

@[simp] theorem append_put : (disk.put path bytes).append path more =
    disk.put path (bytes ++ more) := by
  simp [Disk.append]

theorem onlyAt_put : OnlyAt path disk (disk.put path bytes) :=
  ⟨rfl, fun _ other => Function.update_of_ne other _ _⟩

theorem OnlyAt.put (only : OnlyAt path disk after) (bytes : Bytes) :
    OnlyAt path disk (after.put path bytes) := by
  refine ⟨only.locate, fun file other => ?_⟩
  rw [← only.holds file other]
  apply Function.update_of_ne
  rwa [only.locate]

theorem OnlyAt.append (only : OnlyAt path disk after) (bytes : Bytes) :
    OnlyAt path disk (after.append path bytes) := only.put _

end Disk

/-! ## Digests -/

section Digest

variable {Context File : Type} {sha256 : Sha256 Context} {disk : Disk File} {path : String}
  {reads : List (Except Unit Nat)}

/-- However a file is read, its digest is that of all its bytes. -/
theorem digestLoop_eq (sha256 : Sha256 Context) (reader : Reader Unit UInt8)
    (context : Context) :
    digestLoop sha256 reader context = .ok (sha256.finish (sha256.update context reader.left)) ∨
      digestLoop sha256 reader context = .error .error ∧ .error () ∈ reader.grants := by
  fun_induction digestLoop sha256 reader context with
  | case1 reader context stop isRead =>
      exact .inr ⟨rfl, Reader.read_error isRead⟩
  | case2 reader context rest isRead =>
      obtain ⟨_, emptyIff, _⟩ := Reader.read_ok (by decide) isRead
      rw [emptyIff.mp rfl, sha256.update_nil]
      exact .inl rfl
  | case3 reader context piece rest isRead nonempty ih =>
      obtain ⟨isLeft, _, grants⟩ := Reader.read_ok (by decide) isRead
      rw [isLeft, sha256.update_append]
      rcases ih with isDigest | ⟨isStop, member⟩
      · exact .inl isDigest
      · exact .inr ⟨isStop, grants _ member⟩

/-- No read fails. -/
def Readings (reads : List (Except Unit Nat)) : Prop := .error () ∉ reads

theorem ends_fileDigest (sha256 : Sha256 Context) (disk : Disk File) (path : String)
    (reads : List (Except Unit Nat)) :
    (fileDigest sha256 path reads).Ends disk
      (fun digest after => (∃ content, disk.content path = some content ∧
        digest = sha256.value content) ∧ after = disk)
      fun stop after => stop = .error ∧ (disk.content path = none ∨ ¬Readings reads) ∧
        after = disk := by
  simp only [fileDigest, ends_bind, ends_read, ends_require, ends_ofExcept]
  refine ⟨fun content isContent => ?_, fun missing => ⟨trivial, .inl missing, trivial⟩⟩
  rcases digestLoop_eq sha256 { left := content, grants := reads } sha256.new with
    isValue | ⟨isStop, member⟩
  · refine ⟨fun digest isDigest => ⟨⟨content, isContent, ?_⟩, trivial⟩, fun stop isError => ?_⟩
    · exact Except.ok.inj (isDigest.symm.trans isValue)
    · cases isError.symm.trans isValue
  · refine ⟨fun digest isDigest => ?_, fun stop isError => ⟨?_, .inr ?_, trivial⟩⟩
    · cases isDigest.symm.trans isStop
    · exact Except.error.inj (isError.symm.trans isStop)
    · exact fun readings => readings member

theorem fileDigest_eq {content : Bytes} (isContent : disk.content path = some content)
    (readings : Readings reads) :
    fileDigest sha256 path reads disk = (.ok (sha256.value content), disk) := by
  have ends := ends_fileDigest sha256 disk path reads
  rcases ended : fileDigest sha256 path reads disk with ⟨stop | digest, after⟩
  · obtain ⟨_, missing | fails, _⟩ := ends.of_error ended
    · cases isContent.symm.trans missing
    · exact absurd readings fails
  · obtain ⟨⟨other, isOther, rfl⟩, rfl⟩ := ends.of_ok ended
    cases isContent.symm.trans isOther
    rfl

end Digest

/-! ## Ranges -/

/-- What a server sends of the given ranges until it stops, and how that ends. -/
def received (server : Server) (webPath : String) : Nat → List Span → Bytes × Except Stop Unit
  | _, [] => ([], .ok ())
  | index, range :: rest =>
      match server.get index webPath (headerValue range) with
      | .error stop => ([], .error stop)
      | .ok response =>
          if response.status = statusOk ∨ response.status = statusPartialContent then
            if response.body.complete then
              let later := received server webPath (index + 1) rest
              (response.body.bytes ++ later.1, later.2)
            else (response.body.bytes, .error .error)
          else ([], .ok ())

section Ranges

variable {File : Type} [DecidableEq File] {server : Server} {webPath downloadPath : String}

namespace PartialRangeIter

variable {overflowChecks : Bool} {fuel : Nat} {iter rest : PartialRangeIter} {range : Span}
  {ranges : List Span}

theorem collect_of_none (isNext : iter.next overflowChecks = .ok (none, rest)) :
    iter.collect overflowChecks (fuel + 1) = .ok (some []) := by
  rw [collect, isNext]
  rfl

/-- The ranges after the next one are those of the iterator after it. -/
theorem collect_of_some (isNext : iter.next overflowChecks = .ok (some range, rest))
    (collected : iter.collect overflowChecks (fuel + 1) = .ok (some ranges)) :
    ∃ later, rest.collect overflowChecks fuel = .ok (some later) ∧ ranges = range :: later := by
  rw [collect, isNext] at collected
  change Except.bind (rest.collect overflowChecks fuel) _ = _ at collected
  rcases isRest : rest.collect overflowChecks fuel with stop | _ | later <;>
    rw [isRest] at collected
  · cases collected
  · cases collected
  · cases collected
    exact ⟨later, rfl, rfl⟩

end PartialRangeIter

theorem fetchRanges_eq (server : Server) (webPath downloadPath : String) (index : Nat)
    {overflowChecks : Bool} {fuel : Nat} {iter : PartialRangeIter} {ranges : List Span}
    (collected : iter.collect overflowChecks fuel = .ok (some ranges)) (disk : Disk File)
    (bytes : Bytes) :
    fetchRanges overflowChecks server webPath downloadPath fuel index iter
        (disk.put downloadPath bytes) =
      ((received server webPath index ranges).2.map some,
        disk.put downloadPath (bytes ++ (received server webPath index ranges).1)) := by
  induction fuel generalizing index iter ranges bytes with
  | zero => cases collected
  | succ fuel ih =>
      rcases isNext : iter.next overflowChecks with stop | ⟨_ | range, rest⟩
      · rw [PartialRangeIter.collect, isNext] at collected
        cases collected
      · rw [PartialRangeIter.collect_of_none isNext] at collected
        cases collected
        change Exec.bind (ofExcept (iter.next overflowChecks)) _ _ = _
        rw [isNext, received, List.append_nil]
        rfl
      · obtain ⟨later, isLater, rfl⟩ := PartialRangeIter.collect_of_some isNext collected
        change Exec.bind (ofExcept (iter.next overflowChecks)) _ _ = _
        rw [isNext, received]
        change Exec.bind (ofExcept (server.get index webPath (headerValue range))) _ _ = _
        rcases server.get index webPath (headerValue range) with stop | response
        · simp only [List.append_nil]
          rfl
        · change (if response.status = statusOk ∨ response.status = statusPartialContent then _
            else _ : FileM File (Option Unit)) _ = _
          dsimp only
          split
          · change Exec.bind (ensure (response.body.complete = true) Stop.error) _
              ((disk.put downloadPath bytes).append downloadPath response.body.bytes) = _
            rw [append_put]
            split
            · rename_i complete
              rw [ensure, if_pos complete, ← List.append_assoc]
              exact ih (index + 1) isLater _
            · rename_i cut
              rw [ensure, if_neg cut]
              rfl
          · rw [List.append_nil]
            rfl

theorem exists_collect (overflowChecks : Bool) {length fuel : Nat} (positive : 0 < length)
    (fits : length ≤ u64Max) (enough : length < fuel) :
    ∃ ranges, PartialRangeIter.collect overflowChecks fuel ⟨0, length - 1, chunkSize⟩ =
      .ok (some ranges) ∧ Tiles chunkSize 0 length ranges := by
  obtain ⟨ranges, collected, tiles⟩ :=
    PartialRangeIter.exists_collect overflowChecks ⟨0, length - 1, chunkSize⟩ (Nat.zero_le _)
      (by dsimp only; omega) (show 0 < chunkSize by decide)
      (show length - 1 + 1 - 0 < fuel by omega)
  refine ⟨ranges, collected, ?_⟩
  dsimp only at tiles
  rwa [Nat.sub_add_cancel positive] at tiles

theorem length_collect {overflowChecks : Bool} {fuel : Nat} {iter : PartialRangeIter}
    {ranges : List Span} (fits : iter.last < u64Max) (positive : 0 < iter.bufferSize)
    (collected : iter.collect overflowChecks fuel = .ok (some ranges)) :
    ranges.length =
      (iter.last + 1 - iter.start + (iter.bufferSize - 1)) / iter.bufferSize := by
  induction fuel generalizing iter ranges with
  | zero => cases collected
  | succ fuel ih =>
      by_cases isLeft : iter.start ≤ iter.last
      · have isNext := PartialRangeIter.next_eq overflowChecks iter isLeft fits positive
        obtain ⟨later, isLater, rfl⟩ := PartialRangeIter.collect_of_some isNext collected
        rw [List.length_cons, ih (by exact fits) (by exact positive) isLater]
        dsimp only
        generalize iter.bufferSize = size at *
        by_cases isShort : iter.last + 1 - iter.start ≤ size
        · have all : min size (iter.last + 1 - iter.start) = iter.last + 1 - iter.start := by omega
          have nothing : iter.last + 1 - (iter.start + (iter.last + 1 - iter.start)) + (size - 1) =
            size - 1 := by omega
          have one : iter.last + 1 - iter.start + (size - 1) =
            iter.last - iter.start + 1 * size := by omega
          rw [all, nothing, one, Nat.add_mul_div_right _ _ positive, Nat.div_eq_of_lt (by omega),
            Nat.div_eq_of_lt (by omega)]
        · have full : min size (iter.last + 1 - iter.start) = size := by omega
          have rest : iter.last + 1 - iter.start + (size - 1) =
            iter.last + 1 - (iter.start + size) + (size - 1) + size := by omega
          rw [full, rest, Nat.add_div_right _ positive]
      · have isNone : iter.next overflowChecks = .ok (none, iter) := by
          rw [PartialRangeIter.next, if_pos (Nat.not_le.mp isLeft)]
          rfl
        rw [PartialRangeIter.collect_of_none isNone] at collected
        cases collected
        rw [show iter.last + 1 - iter.start = 0 by omega, Nat.zero_add, List.length_nil,
          Nat.div_eq_of_lt (by omega)]

end Ranges

/-! ## Servers -/

/-- The bytes of a file that a range asks for. -/
def part (file : Bytes) (range : Span) : Bytes :=
  (file.drop range.first).take (range.last + 1 - range.first)

/-- The answer to `HEAD` announces the length of a file and has no body. -/
def HeadReply.announces (file : Bytes) : HeadReply where
  contentLength := some (decimal file.length)
  text := .ok { bytes := [], complete := true }

/-- A server has a file at an address and answers with the range it is asked for. -/
structure Serves (server : Server) (address : String) (file : Bytes) : Prop where
  head : server.head address = .ok (.announces file)
  get : ∀ index range, range.first ≤ range.last → range.last < file.length →
    server.get index address (headerValue range) =
      .ok { status := statusPartialContent, body := { bytes := part file range, complete := true } }

/-- A server has a file at an address and answers with all of it, whatever the range is. -/
structure IgnoresRanges (server : Server) (address : String) (file : Bytes) : Prop where
  head : server.head address = .ok (.announces file)
  get : ∀ index header, server.get index address header =
    .ok { status := statusOk, body := { bytes := file, complete := true } }

/-- A server with one file, which reads the ranges it is asked for. -/
def Server.static (file : Bytes) : Server where
  head _ := .ok (.announces file)
  get _ _ header :=
    match readRange header with
    | some range => .ok
        { status := statusPartialContent, body := { bytes := part file range, complete := true } }
    | none => .ok { status := statusOk, body := { bytes := file, complete := true } }

theorem static_serves {file : Bytes} (fits : file.length ≤ u64Max) (address : String) :
    Serves (.static file) address file where
  head := rfl
  get := by
    intro index range nonempty inFile
    have isRange : readRange (headerValue range) = some range :=
      readRange_headerValue nonempty (by omega)
    simp only [Server.static, isRange]

section Received

variable {server : Server} {address : String} {file : Bytes}

theorem Serves.received_eq (serves : Serves server address file) {size start stop : Nat}
    {ranges : List Span} (tiles : Tiles size start stop ranges) (whole : stop = file.length)
    (index : Nat) : received server address index ranges = (file.drop start, .ok ()) := by
  induction tiles generalizing index with
  | done stop =>
      rw [received, whole, List.drop_length]
  | @next start stop range rest begins nonempty isShort tiles ih =>
      subst begins
      have inFile : range.last < file.length := by
        have := tiles.start_le
        omega
      have joined : part file range ++ file.drop (range.last + 1) = file.drop range.first := by
        have rest : file.drop (range.last + 1) =
            (file.drop range.first).drop (range.last + 1 - range.first) := by
          rw [List.drop_drop, Nat.add_sub_cancel' (by omega)]
        rw [part, rest, List.take_append_drop]
      simp only [received, serves.get index range nonempty inFile, or_true, if_true, ih whole,
        joined]

theorem IgnoresRanges.received_eq (ignores : IgnoresRanges server address file)
    (ranges : List Span) (index : Nat) :
    received server address index ranges =
      ((List.replicate ranges.length file).flatten, .ok ()) := by
  induction ranges generalizing index with
  | nil => rfl
  | cons range rest ih =>
      simp only [received, ignores.get, true_or, if_true, ih, List.length_cons,
        List.replicate_succ, List.flatten_cons]

end Received

/-! ## `download_sdk` -/

/-- The calls of a download to the operating system succeed. -/
structure Works (answers : FileAnswers) : Prop where
  dir : answers.dirExists ∨ answers.dirCreated
  client : answers.client
  created : answers.created
  permitted : answers.permitted
  openedAgain : answers.openedAgain
  readsAgain : Readings answers.readsAgain

section DownloadSdk

variable {Context File : Type} [DecidableEq File] {sha256 : Sha256 Context}
  {overflowChecks : Bool} {dataPath : Bytes} {appInfo : DownloadInfo} {url : String}
  {server : Server} {answers : FileAnswers} {directory fileName : String} {file : Bytes}
  {fuel : Nat}

/-- Whatever was sent, a checked file has the hash, and no other file is written. -/
theorem ends_checkDownload {path : String} {appHash : Bytes} {response : HeadReply}
    {disk before : Disk File} (only : OnlyAt path disk before) :
    (checkDownload sha256 path appHash response answers).Ends before
      (fun _ after => (∃ content, after.content path = some content ∧
        sha256.value content = appHash) ∧ OnlyAt path disk after)
      fun _ after => OnlyAt path disk after := by
  simp only [checkDownload, ends_bind, ends_ofExcept, ends_write, ends_ensure]
  refine ⟨fun content _ => ⟨fun _ => ⟨fun _ => ⟨fun _ => ?_, fun _ => only.append _⟩,
    fun _ => only.append _⟩, fun _ => only.append _⟩, fun _ _ => only⟩
  refine (ends_fileDigest sha256 _ path _).mono ?_ ?_
  · rintro digest after ⟨⟨content, isContent, rfl⟩, rfl⟩
    exact ⟨fun same => ⟨⟨content, isContent, same⟩, only.append _⟩, fun _ => only.append _⟩
  · rintro stop after ⟨_, _, rfl⟩
    exact only.append _

theorem checkDownload_eq (works : Works answers) (sha256 : Sha256 Context) (path : String)
    (appHash file : Bytes) (disk : Disk File) (bytes : Bytes) :
    checkDownload sha256 path appHash (.announces file) answers (disk.put path bytes) =
      (if sha256.value bytes = appHash then .ok () else .error .error, disk.put path bytes) := by
  have isContent : (disk.put path bytes).content path = some bytes := content_put
  have written : (write (·.append path []) : FileM File Unit) (disk.put path bytes) =
      (.ok (), disk.put path bytes) := by
    rw [write, append_put, List.append_nil]
  refine (bind_of_ok rfl).trans ?_
  refine (bind_of_ok written).trans ?_
  refine (bind_of_ok (ensure_of rfl _)).trans ?_
  refine (bind_of_ok (ensure_of works.permitted _)).trans ?_
  refine (bind_of_ok (ensure_of works.openedAgain _)).trans ?_
  refine (bind_of_ok (fileDigest_eq isContent works.readsAgain)).trans ?_
  split
  · exact ensure_of (by assumption) _
  · exact ensure_of_not (by assumption) _

/-- The file is what the server has sent, and the download succeeds if it has the hash. -/
theorem downloadSdk_eq (sha256 : Sha256 Context) (isDirectory : fromUtf8 dataPath = some directory)
    (isFileName : fromUtf8 appInfo.fileName = some fileName) (works : Works answers)
    (announced : server.head s!"{url}/{fileName}" = .ok (.announces file))
    (positive : 0 < file.length) (fits : file.length ≤ u64Max) {ranges : List Span}
    (collected : PartialRangeIter.collect overflowChecks fuel ⟨0, file.length - 1, chunkSize⟩ =
      .ok (some ranges)) {bytes : Bytes}
    (isReceived : received server s!"{url}/{fileName}" 0 ranges = (bytes, .ok ()))
    (disk : Disk File) :
    downloadSdk sha256 overflowChecks dataPath appInfo url server answers fuel disk =
      (if sha256.value bytes = appInfo.appHash then .ok (some ()) else .error .error,
        disk.put (programPath directory fileName) bytes) := by
  have last := u64Result_of_fits overflowChecks
    (show ((file.length : Nat) : Int) - 1 = (file.length - 1 : Nat) by omega) (by omega)
  rw [downloadSdk, isDirectory, isFileName]
  refine (bind_of_ok rfl).trans ?_
  refine (bind_of_ok (ensure_of works.dir _)).trans ?_
  refine (bind_of_ok (ensure_of works.client _)).trans ?_
  refine (bind_of_ok rfl).trans ?_
  dsimp only
  rw [announced]
  refine (bind_of_ok rfl).trans ?_
  refine (bind_of_ok rfl).trans ?_
  rw [headerText_decimal]
  refine (bind_of_ok rfl).trans ?_
  rw [u64FromStr_toDigits fits]
  refine (bind_of_ok rfl).trans ?_
  refine (bind_of_ok (ensure_of works.created _)).trans ?_
  refine (bind_of_ok rfl).trans ?_
  rw [last]
  refine (bind_of_ok rfl).trans ?_
  refine (bind_of_ok rfl).trans ?_
  have isFetched := fetchRanges_eq server s!"{url}/{fileName}" (programPath directory fileName) 0
    collected disk []
  rw [isReceived] at isFetched
  refine (bind_of_ok isFetched).trans ?_
  dsimp only
  have isChecked := checkDownload_eq works sha256 (programPath directory fileName) appInfo.appHash
    file disk bytes
  split at isChecked <;> rename_i hashed
  · rw [if_pos hashed]
    exact (bind_of_ok isChecked).trans rfl
  · rw [if_neg hashed]
    exact bind_of_error isChecked

theorem ends_fetchRanges {webPath path : String} {index : Nat} {iter : PartialRangeIter}
    {disk before : Disk File} (only : OnlyAt path disk before) :
    (fetchRanges overflowChecks server webPath path fuel index iter).Ends before
      (fun _ after => OnlyAt path disk after) fun _ after => OnlyAt path disk after := by
  induction fuel generalizing index iter before with
  | zero => exact only
  | succ fuel ih =>
      rw [fetchRanges, ends_bind, ends_ofExcept]
      refine ⟨?_, fun _ _ => only⟩
      rintro ⟨_ | range, rest⟩ _
      · exact only
      · simp only [ends_bind, ends_ofExcept]
        refine ⟨fun response _ => ?_, fun _ _ => only⟩
        split
        · rw [ends_bind, ends_write, ends_bind, ends_ensure]
          exact ⟨fun _ => ih (only.append _), fun _ => only.append _⟩
        · exact only

/-- A download writes to one file, which has the hash if the download succeeds. -/
theorem ends_downloadSdk (isDirectory : fromUtf8 dataPath = some directory)
    (isFileName : fromUtf8 appInfo.fileName = some fileName) (disk : Disk File) :
    (downloadSdk sha256 overflowChecks dataPath appInfo url server answers fuel).Ends disk
      (fun done after => OnlyAt (programPath directory fileName) disk after ∧
        (done = some () → ∃ content, after.content (programPath directory fileName) = some content ∧
          sha256.value content = appInfo.appHash))
      fun _ after => OnlyAt (programPath directory fileName) disk after := by
  have same := OnlyAt.refl (programPath directory fileName) disk
  simp only [downloadSdk, isDirectory, isFileName, ends_bind, ends_require, ends_ensure,
    ends_ofExcept, ends_write, Option.some.injEq, forall_eq', reduceCtorEq, IsEmpty.forall_iff,
    and_true]
  refine ⟨fun _ => ⟨fun _ => ⟨fun response _ => ⟨fun header _ => ⟨fun text _ =>
    ⟨fun length _ => ⟨fun _ => ?_, fun _ => same⟩, fun _ => same⟩, fun _ => same⟩, fun _ => same⟩,
    fun _ _ => same⟩, fun _ => same⟩, fun _ => same⟩
  have created : OnlyAt (programPath directory fileName) disk
    (disk.create (programPath directory fileName)) := onlyAt_put
  refine ⟨fun last _ => ⟨fun iter _ => ?_, fun _ _ => created⟩, fun _ _ => created⟩
  refine (ends_fetchRanges created).imp ?_
  rintro (_ | _) after only
  · exact ⟨only, by rintro ⟨⟩⟩
  · rw [ends_bind]
    exact (ends_checkDownload only).imp fun _ after checked => ⟨checked.2, fun _ => checked.1⟩

end DownloadSdk

end Popsicle.Node
