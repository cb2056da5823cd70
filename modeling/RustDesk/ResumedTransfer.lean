import RustDesk.TransferProtocol
import Mathlib.Tactic.Common

/-!
# Resumed transfers are complete

The receiver of a resumed transfer finds the part of a file it has, tells how long it is, and
both ends go to that position. The receiver does so only for the file it is at, and it comes
to the next file with the first block of that file, which is after the confirmation. So a
file is resumed rightly if it is the first one of the job that is not skipped. `Safe` is the
condition on a step, and `Faithful` what holds of the states of a run whose steps meet it.
-/

namespace RustDesk

theorem usizeOfI32_natCast {n : Nat} (h : n < 2 ^ 31) : usizeOfI32 (n : Int) = n := by
  unfold usizeOfI32
  omega

theorem asI32_natCast {n : Nat} (h : n < 2 ^ 31) : asI32 (n : Int) = n := by
  unfold asI32
  rw [Int.bmod_eq_of_le] <;> omega

namespace Resumption

variable (c : Resumption)

inductive Slot
  | final
  | download
  | digest
  deriving DecidableEq, Repr

def sourcePath (k : Nat) : String :=
  TransferJob.join (c.sender.fs c.source) c.sourceBase (c.sourceFiles.getD k {}).name

def targetPath (k : Nat) : String :=
  TransferJob.join (c.receiver.fs c.target) c.targetBase (c.targetFiles.getD k {}).name

/-- The paths that the receiver uses for a file. -/
def slot (k : Nat) : Slot → String
  | .final => c.targetPath k
  | .download => c.targetPath k ++ ".download"
  | .digest => c.targetPath k ++ ".digest"

def sourceFile (k : Nat) : DiskFile := (c.source (c.sourcePath k)).getD { data := [] }

/-- The digest the sender sends for a file. -/
def sourceDigest (k : Nat) : FileTransferDigest :=
  { id := c.id
    fileNum := k
    lastModified := (c.sourceFile k).modified
    fileSize := (c.sourceFile k).data.length
    isResume := c.direction = .upload }

/-- How much of a file the receiver finds in an earlier download of it. -/
def found (disk : Disk) (k : Nat) : Option Nat :=
  if c.direction = .upload ∨ c.supportResume = true then
    transferredSize c.receiver (c.targetPath k) (c.sourceDigest k) disk
  else none

/-- The offset that is confirmed for a file, cut to 32 bits. -/
def offset (disk : Disk) (k : Nat) : UInt32 := UInt32.ofNat ((c.found disk k).getD 0)

def Same (disk : Disk) (k : Nat) : Prop :=
  (disk (c.targetPath k)).map DiskFile.data = some (c.sourceFile k).data

instance (disk : Disk) (k : Nat) : Decidable (c.Same disk k) :=
  inferInstanceAs (Decidable (_ = _))

/-- No download of its own lies beside the file at the sender. -/
def SourceClear (k : Nat) : Prop :=
  ((c.source (c.sourcePath k ++ ".download")).isSome &&
    (c.source (c.sourcePath k ++ ".digest")).isSome) = false

instance (k : Nat) : Decidable (c.SourceClear k) := inferInstanceAs (Decidable (_ = _))

/-- What holds of the files and names of a resumed job. The names come from a listing of the
source and have passed the check of the receiver; the digest beside a download is that of
the file it is the beginning of. -/
structure Sound : Prop where
  length_eq : c.targetFiles.length = c.sourceFiles.length
  length_lt : c.sourceFiles.length < 2 ^ 31
  start_nonneg : 0 ≤ c.start
  start_le : c.start ≤ c.sourceFiles.length
  sourceValid : ∀ k < c.sourceFiles.length, TransferJob.joinValidatedPath (c.sender.fs c.source)
    c.sourceBase (c.sourceFiles.getD k {}).name = .ok (c.sourcePath k)
  targetValid : ∀ k < c.sourceFiles.length, TransferJob.joinValidatedPath (c.receiver.fs c.target)
    c.targetBase (c.targetFiles.getD k {}).name = .ok (c.targetPath k)
  sourceExists : ∀ k < c.sourceFiles.length, c.source (c.sourcePath k) = some (c.sourceFile k)
  decompress_compress : ∀ data, c.receiver.decompress (c.sender.compress data) = data
  noClash : ∀ i < c.sourceFiles.length, ∀ j < c.sourceFiles.length, ∀ a b,
    c.slot i a = c.slot j b → i = j
  beginnings : ∀ k < c.sourceFiles.length, c.start ≤ k → ∀ n, c.found c.target k = some n →
    ∀ file, c.target (c.slot k .download) = some file → file.data <+: (c.sourceFile k).data

/-! ## The property and its condition -/

/-- The strategy of the client, whichever end it is. -/
def clientStrategy (job w : TransferJob) : Option Bool :=
  match c.direction with
  | .upload => job.defaultOverwriteStrategy
  | .download => w.defaultOverwriteStrategy

/-- The file that the user has been asked about. -/
def prompt (t : Transfer) : Option Int :=
  match c.direction with
  | .upload => t.sender.prompt
  | .download => t.receiver.prompt

/-- When the sender is about to open a file: if the receiver has a beginning of it, the
receiver is at that file and the sender can go to the offset; and a file that the strategy
skips is already there. When the user skips a file, it is there too, and no download lies
beside it when the receiver is not told and is at that file. -/
def Safe (t : Transfer) : Event → Prop
  | .tick => ∀ job ∈ t.sender.jobs, ∀ w ∈ t.receiver.job,
      job.dataStream = none → usizeOfI32 job.fileNum < c.sourceFiles.length →
      (c.offset t.receiver.disk (usizeOfI32 job.fileNum) ≠ 0 →
        w.fileNum = job.fileNum ∧ c.SourceClear (usizeOfI32 job.fileNum)) ∧
      (c.clientStrategy job w = some false → c.found t.receiver.disk (usizeOfI32 job.fileNum) = none →
        (t.receiver.disk (c.targetPath (usizeOfI32 job.fileNum))).isSome = true →
        c.Same t.receiver.disk (usizeOfI32 job.fileNum))
  | .setConfirmOverrideFile needOverride _ => needOverride = false →
      ∀ n ∈ c.prompt t, c.Same t.receiver.disk (usizeOfI32 n) ∧
        (c.direction = .upload → ∀ w ∈ t.receiver.job, w.fileNum = n →
          t.receiver.disk (c.slot (usizeOfI32 n) .download) = none)

instance (t : Transfer) : ∀ e, Decidable (c.Safe t e)
  | .tick => inferInstanceAs (Decidable (∀ job ∈ t.sender.jobs, ∀ w ∈ t.receiver.job, _ → _ → _))
  | .setConfirmOverrideFile _ _ => inferInstanceAs (Decidable (_ → ∀ n ∈ c.prompt t, _))

/-- Every file of the job, from the one it resumed at, is at the receiver as at the sender,
and those before are as they were. -/
def Complete (disk : Disk) : Prop :=
  ∀ k < c.sourceFiles.length,
    (c.start ≤ k → c.Same disk k) ∧ (k < c.start → disk (c.targetPath k) = c.target (c.targetPath k))

/-- Each block was written where it was read, and a job that is over left all files. -/
def Faithful (t : Transfer) : Prop :=
  (∀ p ∈ t.receiver.log, p.readAt = p.writtenAt) ∧
    (t.receiver.job = none → c.Complete t.receiver.disk)

end Resumption

end RustDesk
