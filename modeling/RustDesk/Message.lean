import Mathlib.Data.List.Basic
import Mathlib.Algebra.Group.Int.Defs
import Mathlib.Algebra.GroupWithZero.Nat

/-!
# Messages of the session protocol

The part of `message.proto` that the controlled side reads. A message whose
`union` is one of the kinds no handler of the controlled side looks at is
`Message.other`; a message without a `union` is `Message.empty`. An enumeration
field is its raw number, since a peer may send a number outside the enumeration,
and `enumValue` is the lookup that fails there.
-/

namespace RustDesk

abbrev Bytes := List UInt8

inductive BoolOption
  | notSet
  | no
  | yes
  deriving DecidableEq, Repr

def BoolOption.enumValue : Int → Option BoolOption
  | 0 => some .notSet
  | 1 => some .no
  | 2 => some .yes
  | _ => none

inductive ImageQuality
  | notSet
  | low
  | balanced
  | best
  deriving DecidableEq, Repr

def ImageQuality.enumValue : Int → Option ImageQuality
  | 0 => some .notSet
  | 2 => some .low
  | 3 => some .balanced
  | 4 => some .best
  | _ => none

def ImageQuality.value : ImageQuality → Int
  | .notSet => 0
  | .low => 2
  | .balanced => 3
  | .best => 4

/-- `SupportedDecoding`: one ability per codec, and the preferred one. -/
structure SupportedDecoding where
  abilityVp9 : Int := 0
  abilityH264 : Int := 0
  abilityH265 : Int := 0
  prefer : Int := 0
  abilityVp8 : Int := 0
  abilityAv1 : Int := 0
  deriving DecidableEq, Repr

structure OptionMessage where
  imageQuality : Int := 0
  lockAfterSessionEnd : Int := 0
  showRemoteCursor : Int := 0
  privacyMode : Int := 0
  blockInput : Int := 0
  customImageQuality : Int := 0
  disableAudio : Int := 0
  disableClipboard : Int := 0
  enableFileTransfer : Int := 0
  supportedDecoding : Option SupportedDecoding := none
  customFps : Int := 0
  disableKeyboard : Int := 0
  followRemoteCursor : Int := 0
  followRemoteWindow : Int := 0
  disableCamera : Int := 0
  terminalPersistent : Int := 0
  showMyCursor : Int := 0
  deriving DecidableEq, Repr

structure PortForward where
  host : String
  port : Int
  deriving DecidableEq, Repr

inductive LoginUnion
  | fileTransfer (dir : String) (showHidden : Bool)
  | portForward (pf : PortForward)
  | viewCamera
  | terminal (serviceId : String)
  deriving DecidableEq, Repr

structure OsLogin where
  username : String := ""
  password : String := ""
  deriving DecidableEq, Repr

structure LoginRequest where
  username : String := ""
  password : Bytes := []
  myId : String := ""
  myName : String := ""
  option : Option OptionMessage := none
  union : Option LoginUnion := none
  videoAckRequired : Bool := false
  sessionId : Nat := 0
  version : String := ""
  osLogin : OsLogin := {}
  myPlatform : String := ""
  hwid : Bytes := []
  avatar : String := ""
  deriving DecidableEq, Repr

structure TestDelay where
  time : Int := 0
  fromClient : Bool := false
  lastDelay : Nat := 0
  targetBitrate : Nat := 0
  deriving DecidableEq, Repr

inductive KeyboardMode
  | legacy
  | map
  | translate
  | auto
  deriving DecidableEq, Repr

inductive KeyUnion
  | controlKey (key : Int)
  | chr (code : Nat)
  | unicode (code : Nat)
  | seq (text : String)
  | win2winHotkey (code : Nat)
  deriving DecidableEq, Repr

/-- `mode` is absent when the peer sent a number outside `KeyboardMode`. -/
structure KeyEvent where
  down : Bool := false
  press : Bool := false
  union : Option KeyUnion := none
  modifiers : List Int := []
  mode : Option KeyboardMode := some .legacy
  deriving DecidableEq, Repr

structure MouseEvent where
  mask : Int := 0
  x : Int := 0
  y : Int := 0
  modifiers : List Int := []
  deriving DecidableEq, Repr

inductive JobType
  | generic
  | printer
  deriving DecidableEq, Repr

/-- The number of a job type in a `Send` action. -/
def JobType.proto : JobType → Int
  | .generic => 0
  | .printer => 1

structure FileEntry where
  name : String := ""
  size : Nat := 0
  modifiedTime : Nat := 0
  deriving DecidableEq, Repr

/-- The `oneof` of `FileTransferSendConfirmRequest`. -/
inductive ConfirmUnion
  | skip (s : Bool)
  | offsetBlk (offset : UInt32)
  deriving DecidableEq, Repr

structure SendConfirm where
  id : Int
  fileNum : Int
  union : Option ConfirmUnion
  deriving DecidableEq, Repr

/-- `r.skip()` -/
def SendConfirm.skip (r : SendConfirm) : Bool :=
  match r.union with
  | some (.skip s) => s
  | _ => false

/-- `r.offset_blk()` -/
def SendConfirm.offsetBlk (r : SendConfirm) : UInt32 :=
  match r.union with
  | some (.offsetBlk offset) => offset
  | _ => 0

inductive FileAction
  | readDir (path : String) (includeHidden : Bool)
  | send (id : Int) (path : String) (includeHidden : Bool) (fileNum : Int) (fileType : Int)
  | receive (id : Int) (path : String) (files : List FileEntry) (fileNum : Int) (totalSize : Nat)
  | create (id : Int) (path : String)
  | removeDir (id : Int) (path : String) (recursive : Bool)
  | removeFile (id : Int) (path : String) (fileNum : Int)
  | allFiles (id : Int) (path : String) (includeHidden : Bool)
  | cancel (id : Int)
  | sendConfirm (r : SendConfirm)
  | rename (id : Int) (path : String) (newName : String)
  | readEmptyDirs (path : String) (includeHidden : Bool)
  | empty
  deriving DecidableEq, Repr

structure FileTransferBlock where
  id : Int
  fileNum : Int
  data : Bytes
  compressed : Bool
  deriving DecidableEq, Repr

structure FileTransferDigest where
  id : Int
  fileNum : Int
  lastModified : Nat
  fileSize : Nat
  isUpload : Bool := false
  isIdentical : Bool := false
  transferredSize : Nat := 0
  isResume : Bool := false
  deriving DecidableEq, Repr

inductive FileResponse
  | dir (id : Int) (path : String) (entries : List FileEntry)
  | block (b : FileTransferBlock)
  | error (id : Int) (error : String) (fileNum : Int)
  | done (id : Int) (fileNum : Int)
  | digest (d : FileTransferDigest)
  | emptyDirs (path : String)
  | empty
  deriving DecidableEq, Repr

inductive TerminalAction
  | openTerminal (terminalId : Int) (rows cols : Nat)
  | data (terminalId : Int) (data : Bytes)
  | resize (terminalId : Int) (rows cols : Nat)
  | close (terminalId : Int)
  | empty
  deriving DecidableEq, Repr

inductive Misc
  | chatMessage (text : String)
  | switchDisplay (display : Int) (width height : Int)
  | option (o : OptionMessage)
  | audioFormat (sampleRate channels : Nat)
  | closeReason (reason : String)
  | refreshVideo (r : Bool)
  | videoReceived
  | restartRemoteDevice
  | elevationDirect
  | elevationLogon (username password : String)
  | elevationEmpty
  | switchSidesRequest (uuid : Bytes)
  | changeResolution (width height : Int)
  | pluginRequest (id : String) (content : Bytes)
  | autoAdjustFps (fps : Nat)
  | clientRecordStatus (status : Bool)
  | captureDisplays (add sub set : List Int)
  | refreshVideoDisplay (display : Int)
  | toggleVirtualDisplay (display : Int) (on : Bool)
  | togglePrivacyMode (implKey : String) (on : Bool)
  | selectedSid (sid : Nat)
  | changeDisplayResolution (display : Int) (width height : Int)
  | messageQuery (switchDisplay : Int)
  | followCurrentDisplay (display : Int)
  | other
  | empty
  deriving DecidableEq, Repr

inductive Message
  | testDelay (t : TestDelay)
  | loginRequest (lr : LoginRequest)
  | auth2fa (code : String) (hwid : Bytes)
  | switchSidesResponse (uuid : Bytes) (lr : Option LoginRequest)
  | mouseEvent (me : MouseEvent)
  | pointerDeviceEvent (scale : Int)
  | keyEvent (ke : KeyEvent)
  | clipboard (content : Bytes)
  | multiClipboards (contents : List Bytes)
  | cliprdr (files : Bool)
  | fileAction (fa : FileAction)
  | fileResponse (fr : FileResponse)
  | misc (m : Misc)
  | audioFrame (data : Bytes)
  | voiceCallRequest (reqTimestamp : Int) (isConnect : Bool)
  | voiceCallResponse (accepted : Bool)
  | screenshotRequest (display : Int) (sid : String)
  | screenshotResponse
  | terminalAction (a : TerminalAction)
  | terminalResponse
  | other
  | empty
  deriving DecidableEq, Repr

/-- `i32 as usize` -/
def usizeOfI32 (d : Int) : Nat := (d % 2 ^ 64).toNat

/-- `as i32`: the low 32 bits as a signed number. -/
def asI32 (n : Int) : Int := Int.bmod n (2 ^ 32)

/-- `str::parse::<i64>`: an optional sign and decimal digits, within 64 bits. -/
def parseI64 (s : List Char) : Option Int :=
  let signed : Bool × List Char := match s with
    | '-' :: ds => (true, ds)
    | '+' :: ds => (false, ds)
    | ds => (false, ds)
  if signed.2.isEmpty || !signed.2.all Char.isDigit then none
  else
    let n : Int := signed.2.foldl (fun n c => n * 10 + (c.toNat - 48 : Nat)) 0
    let v := if signed.1 then -n else n
    if -2 ^ 63 ≤ v ∧ v < 2 ^ 63 then some v else none

/-- `get_version_number`: three digits per dotted part, the last part times ten,
and the number after `-` added. A part that is not a number counts as zero. -/
def getVersionNumber (v : String) : Int :=
  let parts := v.toList.splitOn '-'
  let dotted := ((parts.headD []).splitOn '.').map fun x => (parseI64 x).getD 0
  let n := dotted.foldl (fun n x => n * 1000 + x) 0
  let last := dotted.getLastD 0
  n - last + last * 10 + ((parts[1]?).bind parseI64).getD 0

example : getVersionNumber "1.1.10-1" = 1001101 := by decide

end RustDesk
