import RustDesk.ResumedEnds
import RustDesk.History

/-!
# Runs of a resumed transfer

The invariant follows the read job: it is about to open file `k`, it waits for the user, or it
sends the file. All files before `k` are in place, but for the last one the receiver wrote,
which is put in place when the next one begins. Every guarded step keeps this, and until the
job is over some step brings it nearer to its end.
-/

namespace RustDesk

namespace Resumption

variable {c : Resumption} {job w : TransferJob} {disk : Disk} {j k : Nat}

/-! ## The exchange about a digest -/

/-- The receiver after a digest: at the file and with the stream it had. -/
structure Kept (c : Resumption) (w w' : TransferJob) (j : Nat) : Prop where
  job : Writing c w' j
  stream : w'.dataStream = w.dataStream
  strategy : w'.defaultOverwriteStrategy = w.defaultOverwriteStrategy

theorem Writing.setDigest (hw : Writing c w j) (size modified : Nat) :
    Kept c w (w.setDigest size modified) j :=
  ⟨⟨hw.id, hw.type, hw.dataSource, hw.isResume, hw.fileNum, hw.files⟩, rfl, rfl⟩

/-- The check of a digest, and the decision of a client of the resumed job about it. -/
theorem isWriteNeedConfirmation_answer {isResume : Bool} {d : FileTransferDigest}
    (h : (if isResume then transferredSize c.receiver (c.targetPath k) d disk else none) =
      c.found disk k) :
    (∃ found : FileTransferDigest, isWriteNeedConfirmation c.receiver isResume (c.targetPath k) d disk =
        .needConfirm found ∧ found.id = d.id ∧ found.fileNum = d.fileNum ∧
        ∀ job : TransferJob, job.isResume = true →
          overwriteUnion job found = c.answer disk k job.defaultOverwriteStrategy) ∨
      (isWriteNeedConfirmation c.receiver isResume (c.targetPath k) d disk = .noSuchFile ∧
        ∀ strategy, c.answer disk k strategy = some (.offsetBlk 0)) := by
  simp only [isWriteNeedConfirmation, h, answer]
  cases hf : c.found disk k with
  | some n =>
    refine .inl ⟨_, rfl, rfl, rfl, ?_⟩
    intro job hr
    exact overwriteUnion_found hr rfl (found_spec hf).1
  | none =>
    cases hfile : disk (c.targetPath k) with
    | none => exact .inr ⟨rfl, fun _ => rfl⟩
    | some file =>
      refine .inl ⟨_, rfl, rfl, rfl, ?_⟩
      intro job _
      exact overwriteUnion_strategy rfl

/-- The digest of file `k` at the client that writes. -/
theorem onDigest_eq {r : Receiver} (hw : Writing c w j) (hc : c.Sound)
    (hk : k < c.sourceFiles.length) (hdir : c.direction = .download) :
    ∃ w', Kept c w w' j ∧ c.onDigest r w (c.sourceDigest k) =
      match c.answer r.disk k w.defaultOverwriteStrategy with
      | some union => c.confirmHere { r with job := some w' } (c.request k union)
      | none => ({ r with job := some w', prompt := some (k : Int) }, []) := by
  set w' := w.setDigest (c.sourceDigest k).fileSize (c.sourceDigest k).lastModified with hset
  have hkept : Kept c w w' j := hw.setDigest _ _
  refine ⟨w', hkept, ?_⟩
  have hentry : w.files[usizeOfI32 (c.sourceDigest k).fileNum]? = some (c.targetFiles.getD k {}) :=
    hw.target_entry hc hk
  have hresume : w'.isResume = true := by rw [hkept.job.isResume, hdir]; rfl
  have hpath : TransferJob.join (c.receiver.fs r.disk) c.targetBase (c.targetFiles.getD k {}).name =
      c.targetPath k := rfl
  have hfound : (if c.supportResume && true then
      transferredSize c.receiver (c.targetPath k) (c.sourceDigest k) r.disk else none) =
      c.found r.disk k := by
    simp [found, hdir]
  simp only [onDigest, hentry, hw.dataSource, ← hset, hresume, hpath]
  rcases isWriteNeedConfirmation_answer hfound with ⟨f, hcheck, -, hnum, hunion⟩ | ⟨hcheck, hanswer⟩
  · rw [hcheck]
    simp only [hunion w' hresume, hkept.strategy, hnum]
    cases c.answer r.disk k w.defaultOverwriteStrategy with
    | some union => rfl
    | none => rfl
  · rw [hcheck, hanswer]
    rfl

/-- The digest of file `k` at the connection manager that writes. -/
theorem checkDigest_eq {r : Receiver} (hw : Writing c w j) (hc : c.Sound)
    (hk : k < c.sourceFiles.length) (hdir : c.direction = .upload) :
    ∃ w', Kept c w w' j ∧
      ((∃ d : FileTransferDigest, c.checkDigest r w (c.sourceDigest k) =
          ({ r with job := some w' }, [.response (.digest d)]) ∧
          d.isUpload = true ∧ d.id = c.id ∧ d.fileNum = k ∧
          ∀ job : TransferJob, job.isResume = true →
            overwriteUnion job d = c.answer r.disk k job.defaultOverwriteStrategy) ∨
        (c.checkDigest r w (c.sourceDigest k) =
          ({ r with job := some w' }, [.sendConfirm (c.request k (.offsetBlk 0))]) ∧
          ∀ strategy, c.answer r.disk k strategy = some (.offsetBlk 0))) := by
  set w' := w.setDigest (c.sourceDigest k).fileSize (c.sourceDigest k).lastModified with hset
  refine ⟨w', hw.setDigest _ _, ?_⟩
  have hentry : w.files[usizeOfI32 (c.sourceDigest k).fileNum]? = some (c.targetFiles.getD k {}) :=
    hw.target_entry hc hk
  have hresume : (c.sourceDigest k).isResume = true := by simp [sourceDigest, hdir]
  have hpath : TransferJob.join (c.receiver.fs r.disk) c.targetBase (c.targetFiles.getD k {}).name =
      c.targetPath k := rfl
  have hfound : (if true then transferredSize c.receiver (c.targetPath k)
      { id := (c.sourceDigest k).id, fileNum := (c.sourceDigest k).fileNum,
        lastModified := (c.sourceDigest k).lastModified, fileSize := (c.sourceDigest k).fileSize }
      r.disk else none) = c.found r.disk k := by
    simp only [found, hdir, true_or, if_true]
    rfl
  simp only [checkDigest, hentry, hw.dataSource, ← hset, hresume, hpath]
  rcases isWriteNeedConfirmation_answer hfound with ⟨f, hcheck, hid, hnum, hunion⟩ | ⟨hcheck, hanswer⟩
  · rw [hcheck]
    exact .inl ⟨_, rfl, rfl, hid, hnum, hunion⟩
  · rw [hcheck]
    exact .inr ⟨rfl, hanswer⟩

/-- The user of the client is asked about file `k`. -/
def asked (c : Resumption) (t : Transfer) (w : TransferJob) (k : Nat) : Transfer :=
  match c.direction with
  | .upload =>
    { sender := { t.sender with prompt := some k }
      receiver := { t.receiver with job := some w } }
  | .download =>
    { sender := t.sender
      receiver := { t.receiver with job := some w, prompt := some (k : Int) } }

/-- Both ends hear of the confirmation; the receiver need not, when the file begins anew. -/
inductive Settled (c : Resumption) (t : Transfer) (w : TransferJob) (k : Nat) (union : ConfirmUnion) :
    Transfer → Prop
  | both : Settled c t w k union
      { sender := c.confirmRead t.sender (c.request k union)
        receiver := c.confirmWrite { t.receiver with job := some w } (c.request k union) }
  | sender (h : union = .offsetBlk 0) : Settled c t w k union
      { sender := c.confirmRead t.sender (c.request k union)
        receiver := { t.receiver with job := some w } }

theorem receive_response {r : Receiver} {fr : FileResponse} {n : Nat} (hr : r.job = some w)
    (hid : responseId fr = some w.id) : c.receive r (.response fr n) = c.onResponse r w n fr := by
  simp [receive, hr, hid]

theorem exchange_one {t : Transfer} {p : Packet} {r : Receiver} {replies : List Reply}
    (h : c.receive t.receiver p = (r, replies)) :
    c.exchange t [p] =
      { sender := (c.replyAll t.sender replies).1
        receiver := (c.receiveAll r (c.replyAll t.sender replies).2).1 } := by
  simp [exchange, receiveAll, h]

theorem exchange_digest {t : Transfer} (hjobs : t.sender.jobs = [job]) (hr : Reading c job k)
    (hjob : t.receiver.job = some w) (hw : Writing c w j) (hc : c.Sound)
    (hk : k < c.sourceFiles.length) (n : Nat) :
    ∃ w', Kept c w w' j ∧
      match c.answer t.receiver.disk k (c.clientStrategy job w) with
      | none => c.exchange t [.response (.digest (c.sourceDigest k)) n] = c.asked t w' k
      | some union =>
        Settled c t w' k union (c.exchange t [.response (.digest (c.sourceDigest k)) n]) := by
  have hreceive : c.receive t.receiver (.response (.digest (c.sourceDigest k)) n) =
      c.onResponse t.receiver w n (.digest (c.sourceDigest k)) :=
    receive_response hjob (congrArg some hw.id.symm)
  cases hdir : c.direction with
  | download =>
    obtain ⟨w', hkept, hon⟩ := onDigest_eq (r := t.receiver) hw hc hk hdir
    refine ⟨w', hkept, ?_⟩
    have hupload : (c.sourceDigest k).isUpload = false := rfl
    simp only [onResponse, hdir, hupload, Bool.false_eq_true, if_false, hon] at hreceive
    simp only [clientStrategy, hdir]
    cases hanswer : c.answer t.receiver.disk k w.defaultOverwriteStrategy with
    | none =>
      simp only [hanswer] at hreceive
      rw [exchange_one hreceive]
      simp [asked, hdir, replyAll, receiveAll]
    | some union =>
      simp only [hanswer, confirmHere] at hreceive
      rw [exchange_one hreceive]
      exact .both
  | upload =>
    obtain ⟨w', hkept, hcheck⟩ := checkDigest_eq (r := t.receiver) hw hc hk hdir
    refine ⟨w', hkept, ?_⟩
    simp only [onResponse, hdir] at hreceive
    simp only [clientStrategy, hdir]
    rcases hcheck with ⟨d, hcheck, hupload, hid, hnum, hunion⟩ | ⟨hcheck, hanswer⟩
    · rw [hcheck] at hreceive
      have hresume : job.isResume = true := by rw [hr.isResume, hdir]; rfl
      have hentry : job.files[usizeOfI32 (k : Int)]? = some (c.sourceFiles.getD k {}) := by
        have hlt := hc.length_lt
        rw [hr.files, usizeOfI32_natCast (by omega), getElem?_getD {} hk]
      have hreply : c.replyAll t.sender [.response (.digest d)] = c.onUploadDigest t.sender d := by
        simp [replyAll, reply, hdir, hupload]
      have hfind : t.sender.jobs.find? (·.id = d.id) = some job := by
        simp [hjobs, hr.id, hid]
      simp only [onUploadDigest, hfind, hnum, hentry, hr.dataSource, hunion job hresume] at hreply
      rw [exchange_one hreceive, hreply]
      cases hanswer : c.answer t.receiver.disk k job.defaultOverwriteStrategy with
      | none => simp [asked, hdir, receiveAll]
      | some union =>
        simp only [hid, receiveAll, receive, hdir]
        exact .both
    · rw [hcheck] at hreceive
      rw [exchange_one hreceive, hanswer]
      exact .sender rfl

/-! ## The files of the receiver -/

/-- The files are in place up to file `k`, of which the receiver has nothing new. It is at file
`j`; with a stream, that file is complete and yet to be put in place, and without one it was
skipped unknown to the receiver. -/
structure Before (c : Resumption) (w : TransferJob) (disk : Disk) (j k : Nat) : Prop where
  start_le : c.start ≤ j
  le : j ≤ k
  stream : w.dataStream = none ∨ (j < k ∧ ∃ pos, w.dataStream = c.written j pos)
  same : ∀ i < k, c.start ≤ i → (i ≠ j ∨ w.dataStream = none) → c.Same disk i
  last : w.dataStream ≠ none →
    (disk (c.slot j .download)).map DiskFile.data = some (c.sourceFile j).data
  bare : w.dataStream = none → j < k → disk (c.slot j .download) = none
  rest : ∀ i < c.sourceFiles.length, (i : Int) < c.start ∨ k ≤ i → ∀ a,
    disk (c.slot i a) = c.target (c.slot i a)

/-- The files are in place up to file `k`, of which the receiver has a copy up to `pos`. -/
structure Copying (c : Resumption) (w : TransferJob) (disk : Disk) (k pos : Nat) : Prop where
  start_le : c.start ≤ k
  stream : w.dataStream = c.written k pos
  same : ∀ i < k, c.start ≤ i → c.Same disk i
  copy : ∃ file, disk (c.slot k .download) = some file ∧
    PartialCopy.UpTo pos file.data (c.sourceFile k).data
  rest : ∀ i < c.sourceFiles.length, (i : Int) < c.start ∨ k < i → ∀ a,
    disk (c.slot i a) = c.target (c.slot i a)

variable {w' : TransferJob} {disk' : Disk} {pos : Nat}

theorem Before.congr (hb : Before c w disk j k) (hs : w'.dataStream = w.dataStream) :
    Before c w' disk j k :=
  ⟨hb.start_le, hb.le, by rw [hs]; exact hb.stream, by rw [hs]; exact hb.same,
    by rw [hs]; exact hb.last, by rw [hs]; exact hb.bare, hb.rest⟩

theorem Before.skip_told (hb : Before c w disk k k) (hsame : c.Same disk k)
    (hs : w'.dataStream = none) : Before c w' disk (k + 1) (k + 1) := by
  have hstart := hb.start_le
  have hnone : w.dataStream = none := by
    rcases hb.stream with h | ⟨h, -⟩
    · exact h
    · omega
  refine ⟨by omega, Nat.le_refl _, .inl hs, ?_, fun h => absurd hs h, fun _ h => by omega, ?_⟩
  · intro i hi hle _
    rcases Nat.lt_succ_iff_lt_or_eq.mp hi with hlt | rfl
    · exact hb.same i hlt hle (.inr hnone)
    · exact hsame
  · intro i hi hor
    exact hb.rest i hi (by omega)

theorem Before.skip_untold (hb : Before c w disk j k) (hsame : c.Same disk k)
    (hbare : j = k → disk (c.slot k .download) = none) : Before c w disk j (k + 1) := by
  have hle := hb.le
  refine ⟨hb.start_le, by omega, ?_, ?_, hb.last, ?_, ?_⟩
  · rcases hb.stream with h | ⟨h, hpos⟩
    · exact .inl h
    · exact .inr ⟨by omega, hpos⟩
  · intro i hi hstart hor
    rcases Nat.lt_succ_iff_lt_or_eq.mp hi with hlt | rfl
    · exact hb.same i hlt hstart hor
    · exact hsame
  · intro hnone _
    rcases Nat.lt_or_eq_of_le hle with hlt | rfl
    · exact hb.bare hnone hlt
    · exact hbare rfl
  · intro i hi hor
    exact hb.rest i hi (by omega)

/-- Once the file the receiver is at has been put in place, all before `k` are. -/
theorem Before.same_modifyTime (hb : Before c w disk j k) (hw : Writing c w j) (hc : c.Sound)
    (hk : k ≤ c.sourceFiles.length) {i : Nat} (hi : i < k) (hstart : c.start ≤ i) :
    c.Same (w.modifyTime c.receiver disk) i := by
  have hle := hb.le
  by_cases hij : i = j
  · subst hij
    by_cases hs : w.dataStream = none
    · have hsame := hb.same i hi hstart (.inr hs)
      exact (hw.modifyTime_none hc (by omega) (hb.bare hs hi)).trans hsame
    · have hlast := hb.last hs
      cases hd : disk (c.slot i .download) with
      | none => simp [hd] at hlast
      | some file =>
        rw [hd] at hlast
        exact (hw.modifyTime_download hc (by omega) hd).trans hlast
  · have hother : w.modifyTime c.receiver disk (c.slot i .final) = disk (c.slot i .final) :=
      hw.modifyTime_other hc (by omega) (by omega) hij .final
    have hsame := hb.same i hi hstart (.inl hij)
    unfold Same at hsame ⊢
    rw [← hsame]
    exact congrArg _ hother

theorem same_of_slot {i : Nat} (h : disk' (c.slot i .final) = disk (c.slot i .final))
    (hsame : c.Same disk i) : c.Same disk' i := by
  unfold Same at hsame ⊢
  rw [← hsame]
  exact congrArg _ h

theorem copy_of_wrote {file : DiskFile} (hwrote : Wrote c w' k pos (c.nextData k pos) file disk disk')
    (hcopy : PartialCopy.UpTo pos file.data (c.sourceFile k).data) :
    ∃ file', disk' (c.slot k .download) = some file' ∧
      PartialCopy.UpTo (pos + (c.nextData k pos).length) file'.data (c.sourceFile k).data := by
  have hdownload := hwrote.download
  cases hd : disk' (c.slot k .download) with
  | none => simp [hd] at hdownload
  | some file' =>
    refine ⟨file', rfl, ?_⟩
    rw [hd, Option.map_some, Option.some.injEq] at hdownload
    rw [hdownload]
    exact hcopy.overwrite 0

/-- The first block of file `k`. -/
theorem Before.first (hb : Before c w disk j k) (hw : Writing c w j) (hc : c.Sound)
    (hk : k < c.sourceFiles.length)
    (hwrote : Wrote c w' k 0 (c.nextData k 0) { data := [] } (w.modifyTime c.receiver disk) disk') :
    Copying c w' disk' k (c.nextData k 0).length := by
  have hstart := hb.start_le
  have hle := hb.le
  obtain ⟨file, hfile, hcopy⟩ := copy_of_wrote hwrote (PartialCopy.upTo_nil _)
  rw [Nat.zero_add] at hcopy
  refine ⟨by omega, by simpa using hwrote.stream, ?_, ⟨file, hfile, hcopy⟩, ?_⟩
  · intro i hi hsi
    exact same_of_slot (hwrote.others i (by omega) (by omega) .final)
      (hb.same_modifyTime hw hc (by omega) hi hsi)
  · intro i hi hor a
    rw [hwrote.others i hi (by omega) a, hw.modifyTime_other hc (by omega) hi (by omega) a]
    exact hb.rest i hi (by omega) a

/-- A further block of file `k`. -/
theorem Copying.next {file : DiskFile} (hcp : Copying c w disk k pos) (hk : k < c.sourceFiles.length)
    (hfile : disk (c.slot k .download) = some file)
    (hwrote : Wrote c w' k pos (c.nextData k pos) file disk disk') :
    Copying c w' disk' k (pos + (c.nextData k pos).length) := by
  have hstart := hcp.start_le
  have hcopy : PartialCopy.UpTo pos file.data (c.sourceFile k).data := by
    obtain ⟨f, hf, hcopy⟩ := hcp.copy
    rw [hfile] at hf
    cases hf
    exact hcopy
  refine ⟨hstart, hwrote.stream, ?_, copy_of_wrote hwrote hcopy, ?_⟩
  · intro i hi hsi
    exact same_of_slot (hwrote.others i (by omega) (by omega) .final) (hcp.same i hi hsi)
  · intro i hi hor a
    rw [hwrote.others i hi (by omega) a]
    exact hcp.rest i hi hor a

theorem Copying.finish (hcp : Copying c w disk k pos) (hend : (c.sourceFile k).data.length ≤ pos) :
    Before c w disk k (k + 1) := by
  have hs : w.dataStream ≠ none := by rw [hcp.stream]; simp [written]
  obtain ⟨file, hfile, hcopy⟩ := hcp.copy
  refine ⟨hcp.start_le, by omega, .inr ⟨by omega, pos, hcp.stream⟩, ?_, ?_,
    fun h => absurd h hs, ?_⟩
  · intro i hi hsi hor
    exact hcp.same i (by rcases hor with h | h; · omega
                         · exact absurd h hs) hsi
  · intro _
    rw [hfile, Option.map_some, hcopy.eq hend]
  · intro i hi hor
    exact hcp.rest i hi (by omega)

theorem Before.complete (hb : Before c w disk j c.sourceFiles.length) (hw : Writing c w j)
    (hc : c.Sound) : c.Complete (w.modifyTime c.receiver disk) := by
  have hstart := hb.start_le
  have hle := hb.le
  intro i hi
  refine ⟨fun hsi => hb.same_modifyTime hw hc (Nat.le_refl _) hi hsi, fun hlt => ?_⟩
  have hother : w.modifyTime c.receiver disk (c.slot i .final) = disk (c.slot i .final) :=
    hw.modifyTime_other hc hle hi (by omega) .final
  exact hother.trans (hb.rest i hi (.inl hlt) .final)

theorem Before.complete_bare (hb : Before c w disk j c.sourceFiles.length)
    (hs : w.dataStream = none) : c.Complete disk := by
  intro i hi
  exact ⟨fun hsi => hb.same i hi hsi (.inr hs), fun hlt => hb.rest i hi (.inl hlt) .final⟩

/-! ## The phases of a job -/

/-- A bound on the work from file `k` on: each file is opened, asked about, sent and closed. -/
def work (c : Resumption) (k : Nat) : Nat :=
  (((List.range c.sourceFiles.length).drop k).map fun i => (c.sourceFile i).data.length + 3).sum

theorem work_eq (hk : k < c.sourceFiles.length) :
    c.work k = (c.sourceFile k).data.length + 3 + c.work (k + 1) := by
  unfold work
  rw [List.drop_eq_getElem_cons (by simpa using hk)]
  simp

/-- Where the job is, with a bound on the steps that are left. -/
inductive Phase (c : Resumption) (t : Transfer) : Nat → Prop
  /-- The sender is about to open file `k`, or to end the job. -/
  | opening {job w : TransferJob} {j k : Nat} (hjobs : t.sender.jobs = [job])
      (hjob : t.receiver.job = some w) (ho : Opening c job k) (hw : Writing c w j)
      (hb : Before c w t.receiver.disk j k) (hk : k ≤ c.sourceFiles.length)
      (hskip : job.fileSkipped = true → w.dataStream = none ∨ j + 1 < k)
      (hprompt : c.prompt t = none) : Phase c t (c.work k + 1)
  /-- The user is to decide about file `k`. -/
  | asking {job w : TransferJob} {j k : Nat} (hjobs : t.sender.jobs = [job])
      (hjob : t.receiver.job = some w) (hwait : Waiting c job k) (hw : Writing c w j)
      (hb : Before c w t.receiver.disk j k) (hk : k < c.sourceFiles.length)
      (hprompt : c.prompt t = some (k : Int)) : Phase c t (c.work k)
  /-- File `k` is on its way, and has not begun at the receiver or has come as far there. -/
  | sending {job w : TransferJob} {j k pos : Nat} (hjobs : t.sender.jobs = [job])
      (hjob : t.receiver.job = some w) (hs : Sending c job k pos) (hw : Writing c w j)
      (hcopy : (pos = 0 ∧ Before c w t.receiver.disk j k) ∨
        (j = k ∧ Copying c w t.receiver.disk k pos))
      (hk : k < c.sourceFiles.length) (hprompt : c.prompt t = none) :
      Phase c t (c.work (k + 1) + ((c.sourceFile k).data.length - pos) + 2)
  | over (hjobs : t.sender.jobs = []) (hjob : t.receiver.job = none)
      (hcomplete : c.Complete t.receiver.disk) (hprompt : c.prompt t = none) : Phase c t 0

theorem confirmRead_eq {s : Sender} {job' : TransferJob} {union : ConfirmUnion}
    (hjobs : s.jobs = [job]) (hid : job.id = c.id)
    (h : job.confirm (c.sender.fs c.source) (c.request k union) = some job') :
    c.confirmRead s (c.request k union) = { s with jobs := [job'] } := by
  have hreq : job.id = (c.request k union).id := hid
  simp [confirmRead, hjobs, ReadDrivers.updateJob, hreq, h]

theorem confirmWrite_eq {r : Receiver} {union : ConfirmUnion} (hjob : r.job = some w)
    (hid : w.id = c.id) (h : w.confirm (c.receiver.fs r.disk) (c.request k union) = some w') :
    c.confirmWrite r (c.request k union) = { r with job := some w' } := by
  have hreq : w.id = (c.request k union).id := hid
  simp [confirmWrite, hjob, hreq, h]

theorem phase_zero {t t' : Transfer} (hjobs : t.sender.jobs = [job]) (hwait : Waiting c job k)
    (hw : Writing c w j) (hb : Before c w t.receiver.disk j k) (hk : k < c.sourceFiles.length)
    (hprompt : c.prompt t = none) (hset : Settled c t w k (.offsetBlk 0) t') :
    t'.receiver.log = t.receiver.log ∧
      Phase c t' (c.work (k + 1) + ((c.sourceFile k).data.length - 0) + 2) := by
  obtain ⟨job', hconfirm, hs⟩ := hwait.confirm_zero
  have hread := confirmRead_eq hjobs hwait.id hconfirm
  cases hset with
  | both =>
    obtain ⟨w', hconfirm', hw', hstream⟩ := hw.confirm_zero t.receiver.disk k
    have hwrite : c.confirmWrite { t.receiver with job := some w } (c.request k (.offsetBlk 0)) =
        { t.receiver with job := some w' } := confirmWrite_eq rfl hw.id hconfirm'
    rw [hread, hwrite]
    exact ⟨rfl, .sending rfl rfl hs hw' (.inl ⟨rfl, hb.congr hstream⟩) hk hprompt⟩
  | sender _ =>
    rw [hread]
    exact ⟨rfl, .sending rfl rfl hs hw (.inl ⟨rfl, hb⟩) hk hprompt⟩

theorem phase_skip {t t' : Transfer} (hjobs : t.sender.jobs = [job]) (hwait : Waiting c job k)
    (hw : Writing c w j) (hb : Before c w t.receiver.disk j k) (hc : c.Sound)
    (hk : k < c.sourceFiles.length) (hprompt : c.prompt t = none)
    (hsame : c.Same t.receiver.disk k) (hset : Settled c t w k (.skip true) t') :
    t'.receiver.log = t.receiver.log ∧ Phase c t' (c.work (k + 1) + 1) := by
  obtain ⟨job', hconfirm, ho⟩ := hwait.confirm_skip hc hk
  have hread := confirmRead_eq hjobs hwait.id hconfirm
  cases hset with
  | both =>
    rw [hread]
    by_cases hjk : j = k
    · subst hjk
      obtain ⟨w', hconfirm', hw', hstream⟩ := hw.confirm_skip hc hk t.receiver.disk
      have hwrite : c.confirmWrite { t.receiver with job := some w } (c.request j (.skip true)) =
          { t.receiver with job := some w' } := confirmWrite_eq rfl hw.id hconfirm'
      rw [hwrite]
      exact ⟨rfl, .opening rfl rfl ho hw' (hb.skip_told hsame hstream) hk (fun _ => .inl hstream)
        hprompt⟩
    · have hwrite : c.confirmWrite { t.receiver with job := some w } (c.request k (.skip true)) =
          { t.receiver with job := some w } := confirmWrite_eq rfl hw.id (hw.confirm_other hjk _)
      rw [hwrite]
      refine ⟨rfl, .opening rfl rfl ho hw (hb.skip_untold hsame fun h => absurd h hjk) hk ?_ hprompt⟩
      intro _
      rcases hb.stream with h | ⟨h, -⟩
      · exact .inl h
      · exact .inr (by omega)
  | sender h => cases h

/-- A file whose beginning the receiver has, with both ends at the offset. -/
theorem phase_offset {t t' : Transfer} {n : Nat} (hjobs : t.sender.jobs = [job])
    (hwait : Waiting c job k) (hw : Writing c w k) (hb : Before c w t.receiver.disk k k)
    (hc : c.Sound) (hk : k < c.sourceFiles.length) (hprompt : c.prompt t = none)
    (hclear : c.SourceClear k) (hfound : c.found t.receiver.disk k = some n)
    (hn : UInt32.ofNat n ≠ 0) (hset : Settled c t w k (.offsetBlk (UInt32.ofNat n)) t') :
    t'.receiver.log = t.receiver.log ∧
      Phase c t' (c.work (k + 1) + ((c.sourceFile k).data.length - (UInt32.ofNat n).toNat) + 2) := by
  obtain ⟨job', hconfirm, hs⟩ := hwait.confirm_offset hc hk hclear hn
  have hread := confirmRead_eq hjobs hwait.id hconfirm
  obtain ⟨-, hdigest, file, hfile, hlen⟩ := found_spec hfound
  have hdownload : (t.receiver.disk (c.slot k .download)).isSome = true := by rw [hfile]; rfl
  obtain ⟨w', hconfirm', hw', hstream⟩ := hw.confirm_offset hc hk hdownload hdigest hn
  have hwrite : c.confirmWrite { t.receiver with job := some w }
      (c.request k (.offsetBlk (UInt32.ofNat n))) = { t.receiver with job := some w' } :=
    confirmWrite_eq rfl hw.id hconfirm'
  -- The download has not changed since the job was resumed, so it is a beginning of the source.
  have hslot := hb.rest k hk (.inr (Nat.le_refl k))
  have hstart : (c.found c.target k) = some n := by
    rw [← hfound]
    simp only [found, transferredSize]
    have h₁ := hslot .digest
    have h₂ := hslot .download
    simp only [slot] at h₁ h₂
    rw [h₁, h₂]
  have hbeginning : file.data <+: (c.sourceFile k).data :=
    hc.beginnings k hk hb.start_le n hstart file ((hslot .download).symm.trans hfile)
  have hle : (UInt32.ofNat n).toNat ≤ file.data.length := by
    rw [hlen, UInt32.toNat_ofNat']
    exact Nat.mod_le _ _
  cases hset with
  | both =>
    rw [hread, hwrite]
    refine ⟨rfl, .sending rfl rfl hs hw' (.inr ⟨rfl, hb.start_le, hstream, ?_, ?_, ?_⟩) hk hprompt⟩
    · intro i hi hsi
      exact hb.same i hi hsi (.inl (by omega))
    · exact ⟨file, hfile, PartialCopy.upTo_of_isPrefix hbeginning hle⟩
    · intro i hi hor
      exact hb.rest i hi (by omega)
  | sender h =>
    exact absurd (ConfirmUnion.offsetBlk.inj h) hn

theorem phase_asked {t : Transfer} (hjobs : t.sender.jobs = [job]) (hwait : Waiting c job k)
    (hw : Writing c w j) (hb : Before c w t.receiver.disk j k) (hk : k < c.sourceFiles.length) :
    (c.asked t w k).receiver.log = t.receiver.log ∧ Phase c (c.asked t w k) (c.work k) := by
  unfold asked
  cases hdir : c.direction with
  | upload => exact ⟨rfl, .asking hjobs rfl hwait hw hb hk (by simp [prompt, hdir])⟩
  | download => exact ⟨rfl, .asking hjobs rfl hwait hw hb hk (by simp [prompt, hdir])⟩

/-! ## Steps -/

/-- Each block so far was written where it was read. -/
def Placements (t : Transfer) : Prop := ∀ p ∈ t.receiver.log, p.readAt = p.writtenAt

theorem Placements.congr {t t' : Transfer} (h : Placements t)
    (hlog : t'.receiver.log = t.receiver.log) : Placements t' := by
  unfold Placements
  rw [hlog]
  exact h

/-- The tick at which the receiver hears of file `k`. -/
theorem tick_opening {t : Transfer} (hc : c.Sound) (hjobs : t.sender.jobs = [job])
    (hjob : t.receiver.job = some w) (ho : Opening c job k) (hw : Writing c w j)
    (hb : Before c w t.receiver.disk j k) (hk : k < c.sourceFiles.length)
    (hprompt : c.prompt t = none) (hsafe : c.Safe t .tick) :
    (c.step t .tick).receiver.log = t.receiver.log ∧
      ∃ m < c.work k + 1, Phase c (c.step t .tick) m := by
  have hlt := hc.length_lt
  have hnum : usizeOfI32 job.fileNum = k := by rw [ho.fileNum, usizeOfI32_natCast (by omega)]
  obtain ⟨hsafeOffset, hsafeSkip⟩ := hsafe job (by simp [hjobs]) w (by simp [hjob]) ho.stream
    (by rw [hnum]; exact hk)
  rw [hnum] at hsafeOffset hsafeSkip
  have hwork := work_eq hk
  obtain ⟨job', htick, hwait, hstrategy⟩ := ho.tick hc hk
  set t₁ : Transfer := { t with sender := { t.sender with jobs := [job'] } } with ht₁
  have hstep : c.step t .tick =
      c.exchange t₁ [.response (.digest (c.sourceDigest k)) (readPos t.sender)] := by
    simp [step, hjobs, htick, ht₁]
  have hprompt₁ : c.prompt t₁ = none := hprompt
  obtain ⟨w', hkept, hexchange⟩ := exchange_digest (t := t₁) rfl hwait.toReading hjob hw hc hk
    (readPos t.sender)
  have hb' : Before c w' t₁.receiver.disk j k := hb.congr hkept.stream
  have hclient : c.clientStrategy job' w = c.clientStrategy job w := by
    simp only [clientStrategy, hstrategy]
  rw [← hstep, hclient] at hexchange
  cases hanswer : c.answer t₁.receiver.disk k (c.clientStrategy job w) with
  | none =>
    rw [hanswer] at hexchange
    obtain ⟨hlog, hphase⟩ := phase_asked rfl hwait hkept.job hb' hk
    rw [← hexchange] at hlog hphase
    exact ⟨hlog, _, by omega, hphase⟩
  | some union =>
    rw [hanswer] at hexchange
    have hzero : union = .offsetBlk 0 → (c.step t .tick).receiver.log = t.receiver.log ∧
        ∃ m < c.work k + 1, Phase c (c.step t .tick) m := by
      rintro rfl
      obtain ⟨hlog, hphase⟩ := phase_zero rfl hwait hkept.job hb' hk hprompt₁ hexchange
      exact ⟨hlog, _, by omega, hphase⟩
    unfold answer at hanswer
    cases hfound : c.found t₁.receiver.disk k with
    | some n =>
      simp only [hfound, Option.some.injEq] at hanswer
      subst hanswer
      by_cases hn : UInt32.ofNat n = 0
      · exact hzero (by rw [hn])
      · have hoffset : c.offset t.receiver.disk k = UInt32.ofNat n := by
          have : c.found t.receiver.disk k = some n := hfound
          simp [offset, this]
        obtain ⟨hat, hclear⟩ := hsafeOffset (by rw [hoffset]; exact hn)
        have hjk : j = k := by
          rw [hw.fileNum, ho.fileNum] at hat
          omega
        subst hjk
        obtain ⟨hlog, hphase⟩ := phase_offset rfl hwait hkept.job hb' hc hk hprompt₁ hclear hfound hn
          hexchange
        exact ⟨hlog, _, by omega, hphase⟩
    | none =>
      simp only [hfound] at hanswer
      split at hanswer
      · rename_i hfile
        cases hs : c.clientStrategy job w with
        | none => simp [hs] at hanswer
        | some overwrite =>
          cases overwrite with
          | true => exact hzero (by simpa [hs] using hanswer.symm)
          | false =>
            have hunion : union = .skip true := by simpa [hs] using hanswer.symm
            subst hunion
            obtain ⟨hlog, hphase⟩ := phase_skip rfl hwait hkept.job hb' hc hk hprompt₁
              (hsafeSkip hs hfound hfile) hexchange
            exact ⟨hlog, _, by omega, hphase⟩
      · exact hzero (Option.some.inj hanswer).symm

theorem nextData_length (k pos : Nat) :
    (c.nextData k pos).length = min bufSize ((c.sourceFile k).data.length - pos) := by
  simp [nextData]

/-- The next block of a file is written at the position it was read from. -/
theorem write_block {block : FileTransferBlock} (hc : c.Sound) (hw : Writing c w j)
    (hcopy : (pos = 0 ∧ Before c w disk j k) ∨ (j = k ∧ Copying c w disk k pos))
    (hk : k < c.sourceFiles.length) (hb : Carries c block k (c.nextData k pos)) :
    ∃ w' disk', w.write c.receiver block disk = (none, w', disk') ∧ Writing c w' k ∧
      Copying c w' disk' k (pos + (c.nextData k pos).length) ∧
      (if w.beginsFile block then 0 else w.streamPos) = pos := by
  rcases hcopy with ⟨rfl, hbefore⟩ | ⟨rfl, hcp⟩
  · have hle := hbefore.le
    have hfresh : w.dataStream = none ∨ j ≠ k := by
      rcases hbefore.stream with h | ⟨h, -⟩
      · exact .inl h
      · exact .inr (by omega)
    obtain ⟨w', disk', hwrite, hwrote⟩ := hw.write_first hc (by omega) hk hfresh hb disk
    have hbegins := hw.beginsFile_first hc (by omega) hk hfresh hb
    refine ⟨w', disk', hwrite, hwrote.job, ?_, by simp [hbegins]⟩
    rw [Nat.zero_add]
    exact hbefore.first hw hc hk hwrote
  · obtain ⟨file, hfile, -⟩ := hcp.copy
    obtain ⟨w', disk', hwrite, hwrote⟩ := hw.write_next hc hk hcp.stream hfile hb
    refine ⟨w', disk', hwrite, hwrote.job, hcp.next hk hfile hwrote, ?_⟩
    have hbegins := hw.beginsFile_next hc hk hcp.stream hb
    simp [hbegins, TransferJob.streamPos, hcp.stream, written]

theorem tick_sending {t : Transfer} (hc : c.Sound) (hjobs : t.sender.jobs = [job])
    (hjob : t.receiver.job = some w) (hs : Sending c job k pos) (hw : Writing c w j)
    (hcopy : (pos = 0 ∧ Before c w t.receiver.disk j k) ∨
      (j = k ∧ Copying c w t.receiver.disk k pos))
    (hk : k < c.sourceFiles.length) (hprompt : c.prompt t = none) (hplaced : Placements t) :
    Placements (c.step t .tick) ∧
      ∃ m < c.work (k + 1) + ((c.sourceFile k).data.length - pos) + 2, Phase c (c.step t .tick) m := by
  obtain ⟨job', block, htick, hcarries, hmore, hend⟩ := hs.tick hc hk
  obtain ⟨w', disk', hwrite, hw', hcp, hat⟩ := write_block hc hw hcopy hk hcarries
  have hlen := nextData_length (c := c) k pos
  have hbuf : 0 < bufSize := by decide
  have hpos : readPos t.sender = pos := by
    simp [readPos, hjobs, TransferJob.streamPos, hs.stream, opened]
  set r : Receiver :=
    { t.receiver with
      job := some w'
      disk := disk'
      log := { fileNum := block.fileNum, readAt := pos, writtenAt := pos } :: t.receiver.log } with hr
  have hreceive : c.receive t.receiver (.response (.block block) pos) = (r, []) := by
    have hid : responseId (.block block) = some w.id := congrArg some (hcarries.id.trans hw.id.symm)
    rw [receive_response hjob hid]
    simp only [onResponse, onBlock, hwrite, hat, hr]
  have hstep : c.step t .tick = { sender := { t.sender with jobs := [job'] }, receiver := r } := by
    simp only [step, hjobs, htick, hpos, List.map_cons, List.map_nil]
    rw [exchange_one (t := { t with sender := { t.sender with jobs := [job'] } }) hreceive]
    rfl
  rw [hstep]
  constructor
  · intro p hp
    rcases List.mem_cons.mp hp with rfl | hp
    · rfl
    · exact hplaced p hp
  · by_cases hdata : c.nextData k pos = []
    · obtain ⟨ho, hskipped⟩ := hend hdata
      have hlast : (c.sourceFile k).data.length ≤ pos := by
        rw [hdata, List.length_nil] at hlen
        omega
      refine ⟨_, ?_, .opening rfl rfl ho hw' (hcp.finish (by omega)) hk ?_ hprompt⟩
      · omega
      · intro h
        rw [hskipped] at h
        cases h
    · have hpositive : 0 < (c.nextData k pos).length := List.length_pos_of_ne_nil hdata
      refine ⟨_, ?_, .sending rfl rfl (hmore hdata) hw' (.inr ⟨rfl, hcp⟩) hk hprompt⟩
      omega

theorem replyAll_over {s : Sender} (hs : s.jobs = []) (id : Int) (fr : FileResponse)
    (hfr : (∃ fileNum, fr = .done id fileNum) ∨ ∃ err fileNum, fr = .error id err fileNum) :
    c.replyAll s (c.report fr) = (s, []) := by
  obtain ⟨jobs, prompt⟩ := s
  subst hs
  unfold report
  cases hdir : c.direction with
  | download => rfl
  | upload =>
    rcases hfr with ⟨fileNum, rfl⟩ | ⟨err, fileNum, rfl⟩
    · simp [replyAll, reply, hdir]
    · simp [replyAll, reply, hdir]

theorem tick_end {t : Transfer} (hc : c.Sound) (hjobs : t.sender.jobs = [job])
    (hjob : t.receiver.job = some w) (ho : Opening c job c.sourceFiles.length) (hw : Writing c w j)
    (hb : Before c w t.receiver.disk j c.sourceFiles.length)
    (hskip : job.fileSkipped = true → w.dataStream = none ∨ j + 1 < c.sourceFiles.length)
    (hprompt : c.prompt t = none) :
    (c.step t .tick).receiver.log = t.receiver.log ∧ Phase c (c.step t .tick) 0 := by
  have htick := ho.tick_end hc rfl
  set t₁ : Transfer := { t with sender := { t.sender with jobs := [] } } with ht₁
  cases hend : job.fileSkipped && c.sourceFiles.length == 1 with
  | true =>
    -- The only file was skipped, so the receiver has nothing to put in place.
    rw [Bool.and_eq_true, beq_iff_eq] at hend
    have hbare : w.dataStream = none := by
      rcases hskip hend.1 with h | h
      · exact h
      · omega
    simp only [hend.1, hend.2, beq_self_eq_true, Bool.and_self, if_true] at htick
    have hid : responseId (.error c.id "skipped" ((1 : Nat) : Int)) = some w.id :=
      congrArg some hw.id.symm
    have hreceive := receive_response (r := t₁.receiver) (n := readPos t.sender) (c := c) hjob hid
    have hstep : c.step t .tick =
        { sender := t₁.sender, receiver := { t.receiver with job := none } } := by
      simp only [step, hjobs, htick, List.map_cons, List.map_nil]
      rw [exchange_one (t := t₁) hreceive, replyAll_over rfl c.id _ (.inr ⟨_, _, rfl⟩)]
      rfl
    rw [hstep]
    exact ⟨rfl, .over rfl rfl (hb.complete_bare hbare) hprompt⟩
  | false =>
    simp only [hend, Bool.false_eq_true, if_false] at htick
    have hid : responseId (.done c.id (c.sourceFiles.length : Int)) = some w.id :=
      congrArg some hw.id.symm
    have hreceive := receive_response (r := t₁.receiver) (n := readPos t.sender) (c := c) hjob hid
    have hstep : c.step t .tick =
        { sender := t₁.sender
          receiver :=
            { t.receiver with
              job := none
              disk := w.modifyTime c.receiver t.receiver.disk } } := by
      simp only [step, hjobs, htick, List.map_cons, List.map_nil]
      rw [exchange_one (t := t₁) hreceive, replyAll_over rfl c.id _ (.inl ⟨_, rfl⟩)]
      rfl
    rw [hstep]
    exact ⟨rfl, .over rfl rfl (hb.complete hw hc) hprompt⟩

/-- What the client remembers of an answer changes its strategy only. -/
def remembered (needOverride remember : Bool) (job : TransferJob) : TransferJob :=
  if remember then { job with defaultOverwriteStrategy := some needOverride } else job

theorem Waiting.remembered (hwait : Waiting c job k) (needOverride remember : Bool) :
    Waiting c (remembered needOverride remember job) k := by
  cases remember with
  | true => exact ⟨⟨hwait.id, hwait.type, hwait.dataSource, hwait.isLastJob, hwait.isResume,
      hwait.fileNum, hwait.files, hwait.detection⟩, hwait.stream, hwait.confirmed, hwait.waiting⟩
  | false => exact hwait

theorem Writing.remembered (hw : Writing c w j) (needOverride remember : Bool) :
    Writing c (remembered needOverride remember w) j ∧
      (remembered needOverride remember w).dataStream = w.dataStream := by
  cases remember with
  | true => exact ⟨⟨hw.id, hw.type, hw.dataSource, hw.isResume, hw.fileNum, hw.files⟩, rfl⟩
  | false => exact ⟨hw, rfl⟩

/-- The union of the request that an answer of the user makes. -/
def answerUnion (needOverride : Bool) : ConfirmUnion := if needOverride then .offsetBlk 0 else .skip true

theorem answer_upload {t : Transfer} {needOverride remember : Bool}
    (hdir : c.direction = .upload) (hprompt : c.prompt t = some (k : Int))
    (hjobs : t.sender.jobs = [job]) :
    c.step t (.setConfirmOverrideFile needOverride remember) =
      { t with
        sender := c.confirmRead
          { jobs := [remembered needOverride remember job], prompt := none }
          (c.request k (answerUnion needOverride)) } := by
  simp only [prompt, hdir] at hprompt
  simp only [step, setConfirmOverrideFile, hdir, hprompt, hjobs]
  rfl

theorem answer_download {t : Transfer} {needOverride remember : Bool}
    (hdir : c.direction = .download) (hprompt : c.prompt t = some (k : Int))
    (hjob : t.receiver.job = some w) :
    c.step t (.setConfirmOverrideFile needOverride remember) =
      { sender := c.confirmRead t.sender (c.request k (answerUnion needOverride))
        receiver := c.confirmWrite
          { t.receiver with job := some (remembered needOverride remember w), prompt := none }
          (c.request k (answerUnion needOverride)) } := by
  simp only [prompt, hdir] at hprompt
  simp only [step, setConfirmOverrideFile, hdir, hprompt, hjob]
  rfl

/-- The user answers about file `k`. -/
theorem answer_asking {t : Transfer} {needOverride remember : Bool} (hc : c.Sound)
    (hjobs : t.sender.jobs = [job]) (hjob : t.receiver.job = some w) (hwait : Waiting c job k)
    (hw : Writing c w j) (hb : Before c w t.receiver.disk j k) (hk : k < c.sourceFiles.length)
    (hprompt : c.prompt t = some (k : Int))
    (hsafe : c.Safe t (.setConfirmOverrideFile needOverride remember)) :
    (c.step t (.setConfirmOverrideFile needOverride remember)).receiver.log = t.receiver.log ∧
      ∃ m < c.work k, Phase c (c.step t (.setConfirmOverrideFile needOverride remember)) m := by
  have hlt := hc.length_lt
  have hwork := work_eq hk
  have hnum : usizeOfI32 (k : Int) = k := usizeOfI32_natCast (by omega)
  have hskip : needOverride = false → c.Same t.receiver.disk k ∧ (c.direction = .upload →
      j = k → t.receiver.disk (c.slot k .download) = none) := by
    intro hno
    obtain ⟨hsame, hbare⟩ := hsafe hno (k : Int) (by simp [hprompt])
    rw [hnum] at hsame hbare
    exact ⟨hsame, fun hdir hjk => hbare hdir w (by simp [hjob]) (by rw [hw.fileNum, hjk])⟩
  cases hdir : c.direction with
  | upload =>
    have hwait' := hwait.remembered needOverride remember
    rw [answer_upload hdir hprompt hjobs]
    cases needOverride with
    | true =>
      obtain ⟨job', hconfirm, hs⟩ := hwait'.confirm_zero
      have hread := confirmRead_eq (s := { jobs := [remembered true remember job], prompt := none }) rfl
        hwait'.id hconfirm
      refine ⟨rfl, c.work (k + 1) + ((c.sourceFile k).data.length - 0) + 2, by omega, ?_⟩
      simp only [answerUnion, if_true, hread]
      exact .sending rfl hjob hs hw (.inl ⟨rfl, hb⟩) hk (by simp [prompt, hdir])
    | false =>
      obtain ⟨hsame, hbare⟩ := hskip rfl
      obtain ⟨job', hconfirm, ho⟩ := hwait'.confirm_skip hc hk
      have hread := confirmRead_eq (s := { jobs := [remembered false remember job], prompt := none }) rfl
        hwait'.id hconfirm
      refine ⟨rfl, c.work (k + 1) + 1, by omega, ?_⟩
      simp only [answerUnion, Bool.false_eq_true, if_false, hread]
      refine .opening rfl hjob ho hw (hb.skip_untold hsame (hbare hdir)) hk ?_ (by simp [prompt, hdir])
      intro _
      rcases hb.stream with h | ⟨h, -⟩
      · exact .inl h
      · exact .inr (by omega)
  | download =>
    obtain ⟨hw', hstream⟩ := hw.remembered needOverride remember
    set t₁ : Transfer := { t with receiver := { t.receiver with prompt := none } } with ht₁
    have hprompt₁ : c.prompt t₁ = none := by simp [prompt, hdir, ht₁]
    have hb₁ : Before c (remembered needOverride remember w) t₁.receiver.disk j k := hb.congr hstream
    have hset : Settled c t₁ (remembered needOverride remember w) k (answerUnion needOverride)
        (c.step t (.setConfirmOverrideFile needOverride remember)) := by
      rw [answer_download hdir hprompt hjob]
      exact .both
    cases needOverride with
    | true =>
      obtain ⟨hlog, hphase⟩ := phase_zero (t := t₁) hjobs hwait hw' hb₁ hk hprompt₁ hset
      exact ⟨hlog, _, by omega, hphase⟩
    | false =>
      obtain ⟨hlog, hphase⟩ := phase_skip (t := t₁) hjobs hwait hw' hb₁ hc hk hprompt₁ (hskip rfl).1
        hset
      exact ⟨hlog, _, by omega, hphase⟩

theorem tick_asking {t : Transfer} (hc : c.Sound) (hjobs : t.sender.jobs = [job])
    (hwait : Waiting c job k) (hk : k < c.sourceFiles.length) : c.step t .tick = t := by
  simp only [step, hjobs, hwait.tick hc hk, List.map_nil, exchange, receiveAll, replyAll]
  rw [← hjobs]

theorem tick_over {t : Transfer} (hjobs : t.sender.jobs = []) : c.step t .tick = t := by
  have htick : ReadDrivers.handleReadJobs (c.sender.fs c.source) [] = ([], []) := rfl
  simp only [step, hjobs, htick, List.map_nil, exchange, receiveAll, replyAll]
  rw [← hjobs]

theorem answer_none {t : Transfer} (needOverride remember : Bool) (hprompt : c.prompt t = none) :
    c.step t (.setConfirmOverrideFile needOverride remember) = t := by
  unfold prompt at hprompt
  cases hdir : c.direction with
  | upload =>
    simp only [hdir] at hprompt
    simp only [step, setConfirmOverrideFile, hdir, hprompt]
  | download =>
    simp only [hdir] at hprompt
    simp only [step, setConfirmOverrideFile, hdir, hprompt]

/-! ## Runs -/

/-- A guarded step keeps to the phases; a tick, or an answer where one is due, comes nearer to
the end of the job. -/
theorem Phase.step {t : Transfer} {m : Nat} (h : Phase c t m) (hc : c.Sound) (e : Event)
    (hsafe : c.Safe t e) (hplaced : Placements t) :
    Placements (c.step t e) ∧ ∃ m', Phase c (c.step t e) m' ∧
      (0 < m → ((c.prompt t = none ∧ e = .tick) ∨
        (c.prompt t ≠ none ∧ e = .setConfirmOverrideFile true false)) → m' < m) := by
  cases e with
  | tick =>
    cases h with
    | @opening job w j k hjobs hjob ho hw hb hk hskip hprompt =>
      rcases Nat.lt_or_eq_of_le hk with hlt | rfl
      · obtain ⟨hlog, m', hm, hphase⟩ := tick_opening hc hjobs hjob ho hw hb hlt hprompt hsafe
        exact ⟨hplaced.congr hlog, m', hphase, fun _ _ => hm⟩
      · obtain ⟨hlog, hphase⟩ := tick_end hc hjobs hjob ho hw hb hskip hprompt
        exact ⟨hplaced.congr hlog, 0, hphase, fun h _ => h⟩
    | asking hjobs hjob hwait hw hb hk hprompt =>
      rw [tick_asking hc hjobs hwait hk]
      refine ⟨hplaced, _, .asking hjobs hjob hwait hw hb hk hprompt, ?_⟩
      rintro - (⟨h, -⟩ | ⟨-, h⟩)
      · rw [hprompt] at h
        cases h
      · cases h
    | sending hjobs hjob hs hw hcopy hk hprompt =>
      obtain ⟨hplaced', m', hm, hphase⟩ := tick_sending hc hjobs hjob hs hw hcopy hk hprompt hplaced
      exact ⟨hplaced', m', hphase, fun _ _ => hm⟩
    | «over» hjobs hjob hcomplete hprompt =>
      rw [tick_over hjobs]
      exact ⟨hplaced, 0, .over hjobs hjob hcomplete hprompt, fun h => absurd h (Nat.lt_irrefl 0)⟩
  | setConfirmOverrideFile needOverride remember =>
    have hidle : c.prompt t = none → Placements
          (c.step t (.setConfirmOverrideFile needOverride remember)) ∧
        ∃ m', Phase c (c.step t (.setConfirmOverrideFile needOverride remember)) m' ∧
        (0 < m → ((c.prompt t = none ∧
            Event.setConfirmOverrideFile needOverride remember = .tick) ∨
          (c.prompt t ≠ none ∧ Event.setConfirmOverrideFile needOverride remember =
            .setConfirmOverrideFile true false)) → m' < m) := by
      intro hprompt
      rw [answer_none needOverride remember hprompt]
      refine ⟨hplaced, m, h, ?_⟩
      rintro - (⟨-, h⟩ | ⟨h, -⟩)
      · cases h
      · exact absurd hprompt h
    cases h with
    | asking hjobs hjob hwait hw hb hk hprompt =>
      obtain ⟨hlog, m', hm, hphase⟩ := answer_asking hc hjobs hjob hwait hw hb hk hprompt hsafe
      exact ⟨hplaced.congr hlog, m', hphase, fun _ _ => hm⟩
    | opening hjobs hjob ho hw hb hk hskip hprompt => exact hidle hprompt
    | sending hjobs hjob hs hw hcopy hk hprompt => exact hidle hprompt
    | «over» hjobs hjob hcomplete hprompt => exact hidle hprompt

theorem Phase.faithful {t : Transfer} {m : Nat} (h : Phase c t m) (hplaced : Placements t) :
    c.Faithful t := by
  refine ⟨hplaced, fun hnone => ?_⟩
  cases h with
  | opening hjobs hjob => rw [hnone] at hjob; cases hjob
  | asking hjobs hjob => rw [hnone] at hjob; cases hjob
  | sending hjobs hjob => rw [hnone] at hjob; cases hjob
  | «over» hjobs hjob hcomplete => exact hcomplete

/-- A tick, or writing over the file the user is asked about. -/
def due (c : Resumption) (t : Transfer) : Event :=
  if c.prompt t = none then .tick else .setConfirmOverrideFile true false

/-- What is due, `n` times. -/
def goOn (c : Resumption) : Nat → Transfer → List Event
  | 0, _ => []
  | n + 1, t => c.due t :: c.goOn n (c.step t (c.due t))

/-- A job comes to its end when it goes on with what is due, as long as the steps stay guarded. -/
theorem Phase.ends (hc : c.Sound) (m : Nat) {t : Transfer} (h : Phase c t m) (hplaced : Placements t) :
    ∃ n, History.Guarded c.step c.Safe t (c.goOn n t) →
      (History.run c.step t (c.goOn n t)).receiver.job = none := by
  induction m using Nat.strongRecOn generalizing t with
  | _ m ih =>
    by_cases hm : 0 < m
    · have hdue : (c.prompt t = none ∧ c.due t = .tick) ∨
          (c.prompt t ≠ none ∧ c.due t = .setConfirmOverrideFile true false) := by
        by_cases hprompt : c.prompt t = none
        · exact .inl ⟨hprompt, by rw [due, if_pos hprompt]⟩
        · exact .inr ⟨hprompt, by rw [due, if_neg hprompt]⟩
      by_cases hsafe : c.Safe t (c.due t)
      · obtain ⟨hplaced', m', hphase, hlt⟩ := h.step hc (c.due t) hsafe hplaced
        obtain ⟨n, hn⟩ := ih m' (hlt hm hdue) hphase hplaced'
        exact ⟨n + 1, fun hg => hn hg.2⟩
      · exact ⟨1, fun hg => absurd hg.1 hsafe⟩
    · refine ⟨0, fun _ => ?_⟩
      cases h with
      | «over» hjobs hjob => exact hjob
      | opening => omega
      | sending => omega
      | asking hjobs hjob hwait hw hb hk =>
        have := work_eq hk
        omega

theorem phase_begin (hc : c.Sound) : ∃ m, Phase c c.begin m := by
  have hlt := hc.length_lt
  have hstart : ((c.start.toNat : Nat) : Int) = c.start := Int.toNat_of_nonneg hc.start_nonneg
  have hle := hc.start_le
  refine ⟨_, .opening (k := c.start.toNat) (j := c.start.toNat) rfl rfl
    ⟨⟨rfl, rfl, rfl, rfl, rfl, hstart.symm, rfl, rfl⟩, rfl, rfl, rfl⟩
    ⟨rfl, rfl, rfl, rfl, hstart.symm, rfl⟩ ⟨?_, Nat.le_refl _, .inl rfl, ?_, ?_, ?_, ?_⟩ ?_ ?_ ?_⟩
  · omega
  · intro i hi hsi
    omega
  · intro h
    exact absurd rfl h
  · intro _ h
    omega
  · intro i hi _ a
    rfl
  · omega
  · intro h
    exact .inl rfl
  · unfold prompt
    cases c.direction <;> rfl

end Resumption

open Resumption

/-- In every run of a resumed job whose steps are safe, each block is written at the offset it
was read from, a job that is over has left every file as its source, and a job that is not comes to
its end when it goes on with ticks and with writing over the files the user is asked about, if these steps are
safe as well. -/
theorem resumed_complete (c : Resumption) (hc : c.Sound) (es : List Resumption.Event)
    (hg : History.Guarded c.step c.Safe c.begin es) :
    History.Throughout c.step (fun t => c.Faithful t ∧
      ∃ n, History.Guarded c.step c.Safe t (c.goOn n t) →
        (History.run c.step t (c.goOn n t)).receiver.job = none) c.begin es := by
  have hinv : History.Throughout c.step (fun t => (∃ m, Phase c t m) ∧ Placements t) c.begin es := by
    refine History.throughout_of_guarded ?_ ⟨phase_begin hc, ?_⟩ hg
    · rintro t e ⟨⟨m, hm⟩, hplaced⟩ hsafe
      obtain ⟨hplaced', m', hm', -⟩ := hm.step hc e hsafe hplaced
      exact ⟨⟨m', hm'⟩, hplaced'⟩
    · intro p hp
      cases hp
  refine History.throughout_imp ?_ hinv
  rintro t ⟨⟨m, hm⟩, hplaced⟩
  exact ⟨hm.faithful hplaced, hm.ends hc m hplaced⟩

/-- A host with slashes in its paths, no compression, and a digest in two bytes. -/
def plainHost : Host where
  push p name := p ++ "/" ++ name
  fileName _ := none
  noSymlinkComponents _ _ := none
  compress data := data
  decompress data := data
  parseDigest data := match data with
    | [size, modified] => some { size := size.toNat, modified := modified.toNat }
    | _ => none
  digestJson digest := [UInt8.ofNat digest.size, UInt8.ofNat digest.modified]

def twoSources : Disk := fun path =>
  if path = "/s/a" then some { data := [1, 2, 3], modified := 7 }
  else if path = "/s/b" then some { data := [4, 5], modified := 7 }
  else none

/-- The first two bytes of `a`, and with `second` the first byte of `b`. -/
def beginnings (second : Bool) : Disk := fun path =>
  if path = "/d/a.download" then some { data := [1, 2] }
  else if path = "/d/a.digest" then some { data := [3, 7] }
  else if second && path = "/d/b.download" then some { data := [4] }
  else if second && path = "/d/b.digest" then some { data := [2, 7] }
  else none

/-- A job of the files `a` and `b`, both ways. -/
def twoFiles (direction : Direction) (second : Bool) : Resumption :=
  { direction
    id := 1
    start := 0
    sender := plainHost
    receiver := plainHost
    source := twoSources
    target := beginnings second
    sourceBase := "/s"
    targetBase := "/d"
    sourceFiles := [{ name := "a" }, { name := "b" }]
    targetFiles := [{ name := "a" }, { name := "b" }] }

theorem sound_twoFiles (direction : Direction) (second : Bool) :
    (twoFiles direction second).Sound where
  length_eq := rfl
  length_lt := by cases direction <;> cases second <;> decide
  start_nonneg := by cases direction <;> cases second <;> decide
  start_le := by cases direction <;> cases second <;> decide
  sourceValid := by cases direction <;> cases second <;> decide
  targetValid := by cases direction <;> cases second <;> decide
  sourceExists := by cases direction <;> cases second <;> decide
  decompress_compress _ := rfl
  noClash := by
    have hclash : ∀ a b, (twoFiles direction second).slot 0 a ≠ (twoFiles direction second).slot 1 b := by
      intro a b
      cases a <;> cases b <;> cases direction <;> cases second <;> decide
    intro i hi j hj a b h
    have hi' : i < 2 := hi
    have hj' : j < 2 := hj
    have hcases : i = j ∨ (i = 0 ∧ j = 1) ∨ (i = 1 ∧ j = 0) := by omega
    rcases hcases with hij | ⟨rfl, rfl⟩ | ⟨rfl, rfl⟩
    · exact hij
    · exact absurd h (hclash a b)
    · exact absurd h.symm (hclash b a)
  beginnings := by
    intro k hk _ n _ file hfile
    have hk' : k < 2 := hk
    have hcases : k = 0 ∨ k = 1 := by omega
    rcases hcases with rfl | rfl
    · have hdata : ((twoFiles direction second).target
          ((twoFiles direction second).slot 0 .download)).map DiskFile.data = some [1, 2] := by
        cases direction <;> cases second <;> decide
      rw [hfile, Option.map_some, Option.some.injEq] at hdata
      rw [hdata]
      cases direction <;> cases second <;> decide
    · cases second with
      | true =>
        have hdata : ((twoFiles direction true).target
            ((twoFiles direction true).slot 1 .download)).map DiskFile.data = some [4] := by
          cases direction <;> decide
        rw [hfile, Option.map_some, Option.some.injEq] at hdata
        rw [hdata]
        cases direction <;> decide
      | false =>
        have hnone : (twoFiles direction false).target
            ((twoFiles direction false).slot 1 .download) = none := by
          cases direction <;> decide
        rw [hnone] at hfile
        cases hfile

/-- Ticks enough for the two files. -/
def sevenTicks : List Resumption.Event := List.replicate 7 .tick

/-- With a beginning of the first file only, both ways, the job ends with both files. -/
theorem resumed_complete_twoFiles :
    (History.run (twoFiles .download false).step (twoFiles .download false).begin sevenTicks).receiver.log =
        [⟨1, 2, 2⟩, ⟨1, 0, 0⟩, ⟨0, 3, 3⟩, ⟨0, 2, 2⟩] ∧
      (History.run (twoFiles .download false).step (twoFiles .download false).begin
        sevenTicks).receiver.job = none ∧
      (twoFiles .download false).Faithful
        (History.run (twoFiles .download false).step (twoFiles .download false).begin sevenTicks) ∧
      (twoFiles .upload false).Faithful
        (History.run (twoFiles .upload false).step (twoFiles .upload false).begin sevenTicks) := by
  refine ⟨by decide +kernel, by decide +kernel, ?_, ?_⟩
  · exact (History.throughout_last (resumed_complete (twoFiles .download false)
      (sound_twoFiles .download false) sevenTicks (by decide))).1
  · exact (History.throughout_last (resumed_complete (twoFiles .upload false)
      (sound_twoFiles .upload false) sevenTicks (by decide))).1

/-- With a beginning of both files, the second one loses its beginning, both ways. -/
theorem second_file_loses_beginning :
    ((twoFiles .download true).Sound ∧
      ((History.run (twoFiles .download true).step (twoFiles .download true).begin
        sevenTicks).receiver.disk "/d/b").map DiskFile.data = some [5] ∧
      ¬ (twoFiles .download true).Faithful
        (History.run (twoFiles .download true).step (twoFiles .download true).begin sevenTicks)) ∧
    ((twoFiles .upload true).Sound ∧
      ((History.run (twoFiles .upload true).step (twoFiles .upload true).begin
        sevenTicks).receiver.disk "/d/b").map DiskFile.data = some [5] ∧
      ¬ (twoFiles .upload true).Faithful
        (History.run (twoFiles .upload true).step (twoFiles .upload true).begin sevenTicks)) := by
  refine ⟨⟨sound_twoFiles .download true, by decide, ?_⟩, sound_twoFiles .upload true, by decide, ?_⟩
  · intro h
    have hplace := h.1 ⟨1, 1, 0⟩ (by decide)
    cases hplace
  · intro h
    have hplace := h.1 ⟨1, 1, 0⟩ (by decide)
    cases hplace

end RustDesk
