import RustDesk.ConnectionState

/-!
# Session scope

The filter in front of the dispatch of an authorized connection, and the reduction
of an option message to the fields a session kind may set. A message outside the
scope is named by its family in the warning and in the audit record.
-/

namespace RustDesk

def isBoolOptionNotSet (raw : Int) : Bool := BoolOption.enumValue raw == some .notSet

def optionHasNonTerminalLoginField (o : OptionMessage) : Bool :=
  ImageQuality.enumValue o.imageQuality != some .notSet
    || o.customImageQuality != 0
    || o.customFps != 0
    || o.supportedDecoding.isSome
    || !isBoolOptionNotSet o.lockAfterSessionEnd
    || !isBoolOptionNotSet o.showRemoteCursor
    || !isBoolOptionNotSet o.privacyMode
    || !isBoolOptionNotSet o.blockInput
    || !isBoolOptionNotSet o.disableAudio
    || !isBoolOptionNotSet o.disableClipboard
    || !isBoolOptionNotSet o.enableFileTransfer
    || !isBoolOptionNotSet o.disableKeyboard
    || !isBoolOptionNotSet o.followRemoteCursor
    || !isBoolOptionNotSet o.followRemoteWindow
    || !isBoolOptionNotSet o.disableCamera
    || !isBoolOptionNotSet o.showMyCursor

def optionHasAnyField (o : OptionMessage) : Bool :=
  optionHasNonTerminalLoginField o || !isBoolOptionNotSet o.terminalPersistent

def optionHasNonViewCameraLoginField (o : OptionMessage) : Bool :=
  !(isBoolOptionNotSet o.lockAfterSessionEnd
    && isBoolOptionNotSet o.showRemoteCursor
    && isBoolOptionNotSet o.privacyMode
    && isBoolOptionNotSet o.blockInput
    && isBoolOptionNotSet o.disableClipboard
    && isBoolOptionNotSet o.enableFileTransfer
    && isBoolOptionNotSet o.disableKeyboard
    && isBoolOptionNotSet o.followRemoteCursor
    && isBoolOptionNotSet o.followRemoteWindow
    && isBoolOptionNotSet o.disableCamera
    && isBoolOptionNotSet o.terminalPersistent
    && isBoolOptionNotSet o.showMyCursor)

def isSupportedDecodingOnlyOption (o : OptionMessage) : Bool :=
  o.supportedDecoding.isSome
    && ImageQuality.enumValue o.imageQuality == some .notSet
    && o.customImageQuality == 0
    && o.customFps == 0
    && isBoolOptionNotSet o.lockAfterSessionEnd
    && isBoolOptionNotSet o.showRemoteCursor
    && isBoolOptionNotSet o.privacyMode
    && isBoolOptionNotSet o.blockInput
    && isBoolOptionNotSet o.disableAudio
    && isBoolOptionNotSet o.disableClipboard
    && isBoolOptionNotSet o.enableFileTransfer
    && isBoolOptionNotSet o.disableKeyboard
    && isBoolOptionNotSet o.followRemoteCursor
    && isBoolOptionNotSet o.followRemoteWindow
    && isBoolOptionNotSet o.disableCamera
    && isBoolOptionNotSet o.terminalPersistent
    && isBoolOptionNotSet o.showMyCursor

def thenSome {α : Type*} (c : Bool) (a : α) : Option α := if c then some a else none

/-- The terminal fields of an option message, and whether it has others. -/
def scopedTerminalLoginOption (o : OptionMessage) : Option OptionMessage × Option String :=
  let known := (BoolOption.enumValue o.terminalPersistent).isSome
  let kept : OptionMessage :=
    if known then { terminalPersistent := o.terminalPersistent } else {}
  let violation := !known || optionHasNonTerminalLoginField o
  (thenSome (optionHasAnyField kept) kept, thenSome violation "login.option")

/-- The camera fields of an option message, and whether it has others. -/
def scopedViewCameraOption (o : OptionMessage) : Option OptionMessage × Option String :=
  let kept : OptionMessage :=
    { imageQuality := if (ImageQuality.enumValue o.imageQuality).isSome then o.imageQuality else 0
      customImageQuality := if 0 ≤ o.customImageQuality then o.customImageQuality else 0
      customFps := if 0 ≤ o.customFps then o.customFps else 0
      supportedDecoding := o.supportedDecoding
      disableAudio := if (BoolOption.enumValue o.disableAudio).isSome then o.disableAudio else 0 }
  (thenSome (optionHasAnyField kept) kept,
    thenSome (optionHasNonViewCameraLoginField o) "login.option")

def scopedLoginOption (kind : AuthConnType) (o : OptionMessage) :
    Option OptionMessage × Option String :=
  match kind with
  | .remote => (some o, none)
  | .viewCamera => scopedViewCameraOption o
  | .terminal => scopedTerminalLoginOption o
  | .fileTransfer | .portForward => (none, thenSome (optionHasAnyField o) "login.option")

def isConnectionHousekeepingMessage : Message → Bool
  | .loginRequest _ => true
  | .testDelay _ => true
  | .misc (.closeReason _) => true
  | _ => false

def isRenderBroadcastNoopCompatMessage : Message → Bool
  | .misc (.refreshVideo _) => true
  | .misc (.refreshVideoDisplay _) => true
  | .misc (.option o) => isSupportedDecodingOnlyOption o
  | _ => false

def isTextClipboardNoopCompatMessage : Message → Bool
  | .clipboard _ => true
  | .multiClipboards _ => true
  | _ => false

def isFileTransferScopedMessage (b : Build) : Message → Bool
  | .fileAction _ => true
  | .fileResponse _ => true
  | .misc (.selectedSid _) => b.windows
  | _ => false

def isTerminalScopedOption (o : OptionMessage) : Bool := (scopedTerminalLoginOption o).2.isNone

def isTerminalScopedMessage : Message → Bool
  | .terminalAction _ => true
  | .misc (.chatMessage _) => true
  | .misc (.option o) => isTerminalScopedOption o
  | _ => false

def isViewCameraScopedOption (o : OptionMessage) : Bool := (scopedViewCameraOption o).2.isNone

def isViewCameraScopedMisc (b : Build) : Misc → Bool
  | .switchDisplay .. => true
  | .captureDisplays .. => true
  | .refreshVideo _ => true
  | .refreshVideoDisplay _ => true
  | .videoReceived => true
  | .chatMessage _ => true
  | .audioFormat .. => true
  | .clientRecordStatus _ => true
  | .messageQuery _ => true
  | .togglePrivacyMode .. => true
  | .toggleVirtualDisplay .. => true
  | .changeResolution .. => true
  | .changeDisplayResolution .. => true
  | .option o => isViewCameraScopedOption o
  | .selectedSid _ => b.windows
  | _ => false

def isViewCameraScopedMessage (b : Build) : Message → Bool
  | .screenshotRequest .. => true
  | .misc m => isViewCameraScopedMisc b m
  | .mouseEvent _ => true
  | .pointerDeviceEvent _ => true
  | .keyEvent _ => true
  | .audioFrame _ => true
  | .voiceCallRequest .. => true
  | .voiceCallResponse _ => true
  | _ => false

def miscMessageFamily : Misc → String
  | .chatMessage _ => "misc.chat_message"
  | .switchDisplay .. => "misc.switch_display"
  | .option _ => "misc.option"
  | .audioFormat .. => "misc.audio_format"
  | .captureDisplays .. => "misc.capture_displays"
  | .clientRecordStatus _ => "misc.client_record_status"
  | .togglePrivacyMode .. => "misc.toggle_privacy_mode"
  | .toggleVirtualDisplay .. => "misc.toggle_virtual_display"
  | .selectedSid _ => "misc.selected_sid"
  | .changeResolution .. => "misc.change_resolution"
  | .changeDisplayResolution .. => "misc.change_display_resolution"
  | .messageQuery _ => "misc.message_query"
  | .followCurrentDisplay _ => "misc.follow_current_display"
  | .empty => "misc.empty"
  | _ => "misc.other"

def messageFamily : Message → String
  | .mouseEvent _ => "mouse_event"
  | .audioFrame _ => "audio_frame"
  | .pointerDeviceEvent _ => "pointer_device_event"
  | .keyEvent _ => "key_event"
  | .clipboard _ => "clipboard"
  | .fileAction _ => "file_action"
  | .fileResponse _ => "file_response"
  | .voiceCallRequest .. => "voice_call_request"
  | .voiceCallResponse _ => "voice_call_response"
  | .multiClipboards _ => "multi_clipboards"
  | .screenshotRequest .. => "screenshot_request"
  | .screenshotResponse => "screenshot_response"
  | .terminalAction _ => "terminal_action"
  | .terminalResponse => "terminal_response"
  | .misc m => miscMessageFamily m
  | .empty => "empty"
  | _ => "message.other"

def noopCompat (kind : AuthConnType) (m : Message) : Bool :=
  match kind with
  | .fileTransfer | .terminal =>
    isRenderBroadcastNoopCompatMessage m || isTextClipboardNoopCompatMessage m
  | .portForward => isRenderBroadcastNoopCompatMessage m
  | .viewCamera => isTextClipboardNoopCompatMessage m
  | .remote => false

def allowedMessage (b : Build) (kind : AuthConnType) (m : Message) : Bool :=
  match kind with
  | .remote => true
  | .fileTransfer => isFileTransferScopedMessage b m
  | .portForward => false
  | .viewCamera => isViewCameraScopedMessage b m
  | .terminal => isTerminalScopedMessage m

def authorizedMessageScopeViolation (b : Build) (kind : AuthConnType) (m : Message) :
    Option String :=
  if isConnectionHousekeepingMessage m then none
  else if noopCompat kind m then none
  else if allowedMessage b kind m then none
  else some (messageFamily m)

def Connection.authorizedScopeViolation (b : Build) (s : Connection) (m : Message) :
    Option String :=
  match s.authedConnId with
  | some kind => authorizedMessageScopeViolation b kind m
  | none => thenSome (!isConnectionHousekeepingMessage m) "session.auth_type"

def Connection.scopedUpdateOptionMessage (s : Connection) (o : OptionMessage) :
    Option OptionMessage :=
  match s.authedConnId with
  | some .viewCamera => (scopedViewCameraOption o).1
  | some .terminal => (scopedTerminalLoginOption o).1
  | _ => none

theorem thenSome_eq_some {α : Type*} {c : Bool} {a x : α} :
    thenSome c a = some x ↔ c = true ∧ a = x := by
  unfold thenSome
  cases c <;> simp

/-- What is left of an option message for a camera session sets video and audio only. -/
theorem scopedViewCameraOption_eq {o kept : OptionMessage}
    (h : (scopedViewCameraOption o).1 = some kept) :
    ∃ iq ciq fps audio dec, kept =
      { imageQuality := iq
        customImageQuality := ciq
        customFps := fps
        disableAudio := audio
        supportedDecoding := dec } :=
  ⟨_, _, _, _, _, (thenSome_eq_some.mp h).2.symm⟩

/-- What is left of an option message for a terminal session sets the persistence only. -/
theorem scopedTerminalLoginOption_eq {o kept : OptionMessage}
    (h : (scopedTerminalLoginOption o).1 = some kept) :
    ∃ p, kept = { terminalPersistent := p } := by
  have hk := (thenSome_eq_some.mp h).2
  split_ifs at hk
  · exact ⟨_, hk.symm⟩
  · exact ⟨0, hk.symm⟩

/-- A message passes the filter of an authorized connection exactly when it is
housekeeping, tolerated for old clients, or of the kind's own scope. -/
theorem authorizedMessageScopeViolation_eq_none (b : Build) (kind : AuthConnType) (m : Message) :
    authorizedMessageScopeViolation b kind m = none ↔
      isConnectionHousekeepingMessage m = true ∨ noopCompat kind m = true ∨
        allowedMessage b kind m = true := by
  unfold authorizedMessageScopeViolation
  by_cases hh : isConnectionHousekeepingMessage m = true
  · simp [hh]
  · by_cases hn : noopCompat kind m = true
    · simp [hh, hn]
    · by_cases ha : allowedMessage b kind m = true
      · simp [hh, hn, ha]
      · simp [hh, hn, ha]

end RustDesk
