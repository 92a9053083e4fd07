import Mathlib.Data.List.Infix
import Ironsight.HvccPatch
import Ironsight.Runs

/-! The queue of the low-latency player. Chunks come from a socket and wait for a
source buffer that takes one at a time; the buffer itself waits for the codec that
a control message announces. Every event that a browser can deliver is a step, in
any order, and with the answers that the browser gives to the calls made in it.
Seeking to the live edge only moves the video element and is left out. -/
namespace Ironsight.MsePlayer
open Runs

abbrev Bytes := List UInt8

/-- The patch never reads outside the segment. -/
theorem applyHvccPatch_isSome (buf : Bytes) : (HvccPatch.Player.applyHvccPatch buf).isSome := by
  obtain ⟨out, patched, -⟩ := HvccPatch.Server.patch_total buf
  rw [HvccPatch.Player.applyHvccPatch_eq, patched]
  rfl

/-- `patchInitSegmentHvcc`, with the patch switched on. -/
def patchInitSegmentHvcc (buf : Bytes) : Bytes := (HvccPatch.Player.applyHvccPatch buf).get (applyHvccPatch_isSome buf)

/-! ## The player -/

/-- A call of `appendBuffer`: what was handed over, how the buffer and the player
stood, and the error it threw. -/
structure Attempt where
  chunk : Bytes
  updating : Bool
  closed : Bool
  thrown : Option String
  deriving DecidableEq

structure SourceBuffer where
  updating : Bool
  deriving DecidableEq

/-- The variables of `startMsePlayer`, with the errors reported and the appends
tried so far. -/
structure Player where
  closed : Bool := false
  mediaSource : Bool := true
  sourceBuffer : Option SourceBuffer := none
  queue : List Bytes := []
  initAppended : Bool := false
  errors : List (String × String) := []
  attempts : List Attempt := []
  deriving DecidableEq

/-- The chunks that the source buffer took. -/
def Player.appended (player : Player) : List Bytes :=
  (player.attempts.filter fun attempt => attempt.thrown = none).map Attempt.chunk

/-- `handle.close`. -/
def close (player : Player) : Player :=
  if player.closed then player
  else { player with closed := true, sourceBuffer := none, mediaSource := false, queue := [] }

def fail (message detail : String) (player : Player) : Player :=
  if player.closed then player
  else close { player with errors := player.errors ++ [(message, detail)] }

/-- The `try` of `drainQueue`; `thrown` is the error of `appendBuffer`, should it throw. -/
def appendHead (thrown : Option String) (buffer : SourceBuffer) (chunk : Bytes) (rest : List Bytes) (player : Player) :
    Player :=
  let tried := { player with
    queue := rest
    attempts := player.attempts ++ [⟨chunk, buffer.updating, player.closed, thrown⟩] }
  match thrown with
  | some e => fail "Playback error in browser" ("appendBuffer: " ++ e) tried
  | none => { tried with sourceBuffer := some ⟨true⟩ }

def drainQueue (thrown : Option String) (player : Player) : Player :=
  match player.sourceBuffer with
  | none => player
  | some buffer =>
    if buffer.updating then player
    else match player.queue with
      | [] => player
      | chunk :: rest => appendHead thrown buffer chunk rest player

/-- `\s` of a regular expression. -/
def isWhiteSpace (c : Char) : Bool :=
  c ∈ ['\t', '\n', '\x0b', '\x0c', '\r', ' ', '\u00a0', '\u1680', '\u2028', '\u2029', '\u202f', '\u205f', '\u3000', '\ufeff'] ||
    ('\u2000' ≤ c && c ≤ '\u200a')

/-- `/codecs\s*=/.test`. -/
def namesCodecs (text : String) : Bool :=
  text.toList.tails.any fun rest =>
    "codecs".toList.isPrefixOf rest && (((rest.drop 6).dropWhile isWhiteSpace).head? = some '=')

section
variable (isTypeSupported : String → Bool) (announced : String → Option String)

/-- `setupSourceBuffer`; `thrown` is the error of `addSourceBuffer`, should it be called. -/
def setupSourceBuffer (thrown : Option String) (codecs : String) (player : Player) : Player :=
  if player.closed || !player.mediaSource then player
  else
    let mime := if namesCodecs codecs then codecs else "video/mp4; codecs=\"" ++ codecs ++ "\""
    if !isTypeSupported mime then fail "Browser cannot decode this stream (codec unsupported)" mime player
    else match thrown with
      | some e => fail "Browser cannot decode this stream" ("addSourceBuffer: " ++ e) player
      | none => { player with sourceBuffer := some ⟨false⟩ }

def onBinary (thrown : Option String) (buf : Bytes) (player : Player) : Player :=
  if player.closed then player
  else
    let chunk := if !player.initAppended then patchInitSegmentHvcc buf else buf
    drainQueue thrown { player with initAppended := true, queue := player.queue ++ [chunk] }

/-- `onControl`; `announced` is the value of a JSON text of the type `mse`. -/
def onControl (thrown : Option String) (data : String) (player : Player) : Player :=
  if player.closed then player
  else match announced data with
    | none => player
    | some codecs => if player.sourceBuffer.isNone then setupSourceBuffer isTypeSupported thrown codecs player else player

/-! ## Events -/

/-- What can happen to a player. The browser ends an append and dispatches
`updateend` whenever it likes, which is more than it is allowed to. -/
inductive Event where
  | binary (buf : Bytes) (thrown : Option String)
  | control (data : String) (thrown : Option String)
  | appendEnded
  | updateend (thrown : Option String)
  | socketError
  | socketClosed (code : Nat)
  | close
  deriving DecidableEq

/-- The events that end in `drainQueue`. -/
def Event.drains : Event → Bool
  | .binary _ _ => true
  | .updateend _ => true
  | _ => false

def step (player : Player) : Event → Player
  | .binary buf thrown => onBinary thrown buf player
  | .control data thrown => onControl isTypeSupported announced thrown data player
  | .appendEnded => { player with sourceBuffer := player.sourceBuffer.map fun _ => ⟨false⟩ }
  | .updateend thrown => drainQueue thrown player
  | .socketError => fail "Stream unavailable" "websocket error" player
  | .socketClosed code =>
    if !player.closed && code ≠ 1000 && code ≠ 1005 then
      fail "Stream unavailable" ("websocket closed (" ++ toString code ++ ")") player
    else player
  | .close => close player

/-- `startMsePlayer`, and the events since. -/
def run (events : List Event) : Player := exec (step isTypeSupported announced) {} events

/-- The binary messages among some events. -/
def received (events : List Event) : List Bytes :=
  events.filterMap fun event => match event with
    | .binary buf _ => some buf
    | _ => none

/-- The first of some chunks patched. -/
def patchFirst : List Bytes → List Bytes
  | [] => []
  | first :: rest => patchInitSegmentHvcc first :: rest

/-! ## What the player keeps -/

theorem patchFirst_append (chunks : List Bytes) (buf : Bytes) :
    patchFirst (chunks ++ [buf]) = patchFirst chunks ++ [if chunks = [] then patchInitSegmentHvcc buf else buf] := by
  cases chunks <;> simp [patchFirst]

@[simp] theorem appended_tried (player : Player) (attempt : Attempt) (queue : List Bytes) :
    Player.appended { player with queue, attempts := player.attempts ++ [attempt] } =
      player.appended ++ if attempt.thrown = none then [attempt.chunk] else [] := by
  simp only [Player.appended, List.filter_append, List.map_append, List.filter_cons, List.filter_nil, decide_eq_true_eq]
  split <;> rfl

/-- Whatever happens to a player: the appends are a front of what came, and each was
tried on a buffer at rest while the player was open. -/
structure Kept (chunks : List Bytes) (player : Player) : Prop where
  inOrder : player.appended <+: patchFirst chunks
  alone : ∀ attempt ∈ player.attempts, attempt.updating = false ∧ attempt.closed = false

/-- While a player is open no chunk is missing; once closed it holds nothing. -/
structure Sound (chunks : List Bytes) (player : Player) : Prop extends Kept chunks player where
  complete : player.closed = false → player.appended ++ player.queue = patchFirst chunks
  begun : player.closed = false → (player.initAppended = true ↔ chunks ≠ [])
  shut : player.closed = true → player.sourceBuffer = none ∧ player.queue = []

variable {chunks : List Bytes} {player : Player}

theorem close_open (isOpen : player.closed = false) :
    close player = { player with closed := true, sourceBuffer := none, mediaSource := false, queue := [] } :=
  if_neg (by simp [isOpen])

theorem close_closed (shut : player.closed = true) : close player = player := if_pos shut

theorem fail_open (isOpen : player.closed = false) (message detail : String) :
    fail message detail player = close { player with errors := player.errors ++ [(message, detail)] } :=
  if_neg (by simp [isOpen])

theorem fail_sourceBuffer (isOpen : player.closed = false) (message detail : String) :
    (fail message detail player).sourceBuffer = none := by
  rw [fail_open isOpen, close_open (by exact isOpen)]

theorem fail_closed (shut : player.closed = true) (message detail : String) :
    fail message detail player = player := if_pos shut

theorem Sound.isOpen (sound : Sound chunks player) {buffer : SourceBuffer} (held : player.sourceBuffer = some buffer) :
    player.closed = false := by
  cases shut : player.closed with
  | false => rfl
  | true =>
    rw [(sound.shut shut).1] at held
    cases held

theorem Kept.shut (kept : Kept chunks player) (isOpen : player.closed = false) : Sound chunks (close player) := by
  rw [close_open isOpen]
  exact ⟨⟨kept.inOrder, kept.alone⟩, nofun, nofun, fun _ => ⟨rfl, rfl⟩⟩

theorem Kept.failed (kept : Kept chunks player) (isOpen : player.closed = false) (message detail : String) :
    Sound chunks (fail message detail player) := by
  rw [fail_open isOpen]
  exact Kept.shut ⟨kept.inOrder, kept.alone⟩ isOpen

theorem Sound.closed (sound : Sound chunks player) : Sound chunks (close player) := by
  cases shut : player.closed with
  | false => exact sound.toKept.shut shut
  | true => rwa [close_closed shut]

theorem Sound.failed (sound : Sound chunks player) (message detail : String) :
    Sound chunks (fail message detail player) := by
  cases shut : player.closed with
  | false => exact sound.toKept.failed shut message detail
  | true => rwa [fail_closed shut]

/-- A drain has nothing to do, or it hands the head of the queue to a buffer at rest. -/
theorem drainQueue_cases (thrown : Option String) (player : Player) :
    (drainQueue thrown player = player ∧
      ∀ buffer, player.sourceBuffer = some buffer → player.queue ≠ [] → buffer.updating = true) ∨
    ∃ buffer chunk rest, player.sourceBuffer = some buffer ∧ buffer.updating = false ∧ player.queue = chunk :: rest ∧
      drainQueue thrown player = appendHead thrown buffer chunk rest player := by
  cases held : player.sourceBuffer with
  | none => exact .inl ⟨by rw [drainQueue, held], nofun⟩
  | some buffer =>
    cases resting : buffer.updating with
    | true => exact .inl ⟨by simp [drainQueue, held, resting], fun other same _ => Option.some.inj same ▸ resting⟩
    | false =>
      cases waiting : player.queue with
      | nil => exact .inl ⟨by simp [drainQueue, held, resting, waiting], fun _ _ some => absurd rfl some⟩
      | cons chunk rest =>
        exact .inr ⟨buffer, chunk, rest, rfl, resting, rfl, by simp [drainQueue, held, resting, waiting]⟩

/-- The buffer works after an append that did not throw. -/
theorem appendHead_busy (thrown : Option String) (buffer : SourceBuffer) (chunk : Bytes) (rest : List Bytes)
    (isOpen : player.closed = false) {after : SourceBuffer}
    (held : (appendHead thrown buffer chunk rest player).sourceBuffer = some after) : after.updating = true := by
  cases thrown with
  | none =>
    obtain rfl : (⟨true⟩ : SourceBuffer) = after := Option.some.inj held
    rfl
  | some e =>
    rw [appendHead, fail_sourceBuffer (by exact isOpen)] at held
    cases held

theorem Sound.appended (sound : Sound chunks player) (thrown : Option String) {buffer : SourceBuffer} {chunk : Bytes}
    {rest : List Bytes} (held : player.sourceBuffer = some buffer) (resting : buffer.updating = false)
    (waiting : player.queue = chunk :: rest) : Sound chunks (appendHead thrown buffer chunk rest player) := by
  have isOpen := sound.isOpen held
  have complete := sound.complete isOpen
  rw [waiting] at complete
  have alone (answer : Option String) : ∀ attempt ∈ player.attempts ++ [⟨chunk, buffer.updating, player.closed, answer⟩],
      attempt.updating = false ∧ attempt.closed = false :=
    List.forall_mem_append.mpr ⟨sound.alone, List.forall_mem_singleton.mpr ⟨resting, isOpen⟩⟩
  cases thrown with
  | some e =>
    have taken := appended_tried player ⟨chunk, buffer.updating, player.closed, some e⟩ rest
    rw [if_neg (by simp), List.append_nil] at taken
    have kept : Kept chunks { player with
        queue := rest
        attempts := player.attempts ++ [⟨chunk, buffer.updating, player.closed, some e⟩] } :=
      ⟨taken.symm ▸ sound.inOrder, alone (some e)⟩
    exact kept.failed isOpen _ _
  | none =>
    have taken : (appendHead none buffer chunk rest player).appended = player.appended ++ [chunk] :=
      appended_tried player ⟨chunk, buffer.updating, player.closed, none⟩ rest
    have whole : (player.appended ++ [chunk]) ++ rest = patchFirst chunks := by rw [List.append_assoc, ← complete]; rfl
    refine ⟨⟨?_, alone none⟩, fun _ => ?_, sound.begun, fun shut => ?_⟩
    · rw [taken]
      exact ⟨rest, whole⟩
    · rw [taken]
      exact whole
    · exact absurd (isOpen.symm.trans shut) Bool.false_ne_true

theorem Sound.drained (sound : Sound chunks player) (thrown : Option String) :
    Sound chunks (drainQueue thrown player) := by
  rcases drainQueue_cases thrown player with ⟨same, -⟩ | ⟨buffer, chunk, rest, held, resting, waiting, drained⟩
  · rwa [same]
  · rw [drained]
    exact sound.appended thrown held resting waiting

/-- After a drain nothing waits for a buffer at rest. -/
theorem Sound.busy (sound : Sound chunks player) (thrown : Option String) {buffer : SourceBuffer}
    (held : (drainQueue thrown player).sourceBuffer = some buffer) (waiting : (drainQueue thrown player).queue ≠ []) :
    buffer.updating = true := by
  rcases drainQueue_cases thrown player with ⟨same, busy⟩ | ⟨before, chunk, rest, was, -, -, drained⟩
  · rw [same] at held waiting
    exact busy buffer held waiting
  · rw [drained] at held
    exact appendHead_busy thrown before chunk rest (sound.isOpen was) held

/-- A chunk that arrives goes to the end of the queue, the first one patched. -/
theorem Sound.queued (sound : Sound chunks player) (isOpen : player.closed = false) (buf : Bytes) :
    Sound (chunks ++ [buf]) { player with
      initAppended := true
      queue := player.queue ++ [if !player.initAppended then patchInitSegmentHvcc buf else buf] } := by
  have chunk : (if !player.initAppended then patchInitSegmentHvcc buf else buf) =
      if chunks = [] then patchInitSegmentHvcc buf else buf := by
    cases begun : player.initAppended with
    | false =>
      have first : chunks = [] := by
        by_contra some
        rw [(sound.begun isOpen).mpr some] at begun
        cases begun
      rw [if_pos (show (!false) = true from rfl), if_pos first]
    | true => rw [if_neg (by simp), if_neg ((sound.begun isOpen).mp begun)]
  refine ⟨⟨?_, sound.alone⟩, fun _ => ?_, fun _ => by simp, fun shut => absurd (isOpen.symm.trans shut) Bool.false_ne_true⟩
  · rw [patchFirst_append]
    exact sound.inOrder.trans (List.prefix_append _ _)
  · rw [patchFirst_append, ← sound.complete isOpen, List.append_assoc, chunk]
    rfl

theorem Sound.late (sound : Sound chunks player) (shut : player.closed = true) (buf : Bytes) :
    Sound (chunks ++ [buf]) player := by
  refine ⟨⟨?_, sound.alone⟩, fun isOpen => ?_, fun isOpen => ?_, sound.shut⟩
  · rw [patchFirst_append]
    exact sound.inOrder.trans (List.prefix_append _ _)
  all_goals exact absurd (isOpen.symm.trans shut) Bool.false_ne_true

theorem onBinary_open (isOpen : player.closed = false) (thrown : Option String) (buf : Bytes) :
    onBinary thrown buf player = drainQueue thrown { player with
      initAppended := true
      queue := player.queue ++ [if !player.initAppended then patchInitSegmentHvcc buf else buf] } :=
  if_neg (by simp [isOpen])

theorem onBinary_closed (shut : player.closed = true) (thrown : Option String) (buf : Bytes) :
    onBinary thrown buf player = player :=
  if_pos shut

theorem Sound.binary (sound : Sound chunks player) (thrown : Option String) (buf : Bytes) :
    Sound (chunks ++ [buf]) (onBinary thrown buf player) := by
  cases shut : player.closed with
  | true =>
    rw [onBinary_closed shut]
    exact sound.late shut buf
  | false =>
    rw [onBinary_open shut]
    exact (sound.queued shut buf).drained thrown

/-- After a binary message nothing waits for a buffer at rest. -/
theorem Sound.binary_busy (sound : Sound chunks player) (thrown : Option String) (buf : Bytes) {buffer : SourceBuffer}
    (held : (onBinary thrown buf player).sourceBuffer = some buffer) (waiting : (onBinary thrown buf player).queue ≠ []) :
    buffer.updating = true := by
  cases shut : player.closed with
  | true =>
    rw [onBinary_closed shut] at waiting
    exact absurd (sound.shut shut).2 waiting
  | false =>
    rw [onBinary_open shut] at held waiting
    exact (sound.queued shut buf).busy thrown held waiting

theorem Sound.setup (sound : Sound chunks player) (isOpen : player.closed = false) (thrown : Option String) (codecs : String) :
    Sound chunks (setupSourceBuffer isTypeSupported thrown codecs player) := by
  unfold setupSourceBuffer
  split
  · exact sound
  extract_lets mime
  split
  · exact sound.failed _ _
  cases thrown with
  | some e => exact sound.failed _ _
  | none =>
    exact ⟨⟨sound.inOrder, sound.alone⟩, sound.complete, sound.begun,
      fun shut => absurd (isOpen.symm.trans shut) Bool.false_ne_true⟩

theorem Sound.control (sound : Sound chunks player) (thrown : Option String) (data : String) :
    Sound chunks (onControl isTypeSupported announced thrown data player) := by
  rw [onControl]
  split
  · exact sound
  rename_i notClosed
  cases announced data with
  | none => exact sound
  | some codecs =>
    dsimp only
    split
    · exact sound.setup isTypeSupported (by simpa using notClosed) thrown codecs
    · exact sound

theorem Sound.ended (sound : Sound chunks player) :
    Sound chunks { player with sourceBuffer := player.sourceBuffer.map fun _ => ⟨false⟩ } :=
  ⟨⟨sound.inOrder, sound.alone⟩, sound.complete, sound.begun,
    fun shut => ⟨by rw [(sound.shut shut).1]; rfl, (sound.shut shut).2⟩⟩

theorem Sound.step (sound : Sound chunks player) (event : Event) :
    Sound (chunks ++ received [event]) (step isTypeSupported announced player event) := by
  cases event with
  | binary buf thrown => exact sound.binary thrown buf
  | control data thrown =>
    rw [show received [Event.control data thrown] = [] from rfl, List.append_nil]
    exact sound.control isTypeSupported announced thrown data
  | appendEnded => exact (List.append_nil chunks).symm ▸ sound.ended
  | updateend thrown => exact (List.append_nil chunks).symm ▸ sound.drained thrown
  | socketError => exact (List.append_nil chunks).symm ▸ sound.failed _ _
  | socketClosed code =>
    rw [show received [Event.socketClosed code] = [] from rfl, List.append_nil, MsePlayer.step]
    split
    · exact sound.failed _ _
    · exact sound
  | close => exact (List.append_nil chunks).symm ▸ sound.closed

theorem start_sound : Sound [] {} :=
  ⟨⟨List.prefix_rfl, by rintro _ ⟨⟩⟩, fun _ => rfl, fun _ => by simp, by rintro ⟨⟩⟩

theorem run_sound (events : List Event) : Sound (received events) (run isTypeSupported announced events) := by
  induction events using List.reverseRecOn with
  | nil => exact start_sound
  | append_singleton earlier event ih =>
    rw [run, exec_append, received, List.filterMap_append]
    exact ih.step isTypeSupported announced event

/-- Whatever the browser, the socket and the user do, in any order: the source buffer
takes a front of the chunks that came, in order, with only the first one patched, and
those that it has not taken wait while the player is open; no append is tried while the
buffer is busy or after the player was closed; and after each binary message and each
`updateend`, chunks wait only for a buffer that is busy. -/
theorem queue_drains_in_order (events : List Event) :
    (run isTypeSupported announced events).appended <+: patchFirst (received events) ∧
    ((run isTypeSupported announced events).closed = false →
      (run isTypeSupported announced events).appended ++ (run isTypeSupported announced events).queue =
        patchFirst (received events)) ∧
    (∀ attempt ∈ (run isTypeSupported announced events).attempts, attempt.updating = false ∧ attempt.closed = false) ∧
    ∀ event : Event, event.drains = true → ∀ buffer,
      (run isTypeSupported announced (events ++ [event])).sourceBuffer = some buffer →
      (run isTypeSupported announced (events ++ [event])).queue ≠ [] → buffer.updating = true := by
  have sound := run_sound isTypeSupported announced events
  refine ⟨sound.inOrder, sound.complete, sound.alone, fun event drains buffer held waiting => ?_⟩
  rw [run, exec_append] at held waiting
  cases event with
  | binary buf thrown => exact sound.binary_busy thrown buf held waiting
  | updateend thrown => exact sound.busy thrown held waiting
  | control _ _ => cases drains
  | appendEnded | socketError => cases drains
  | socketClosed _ => cases drains
  | close => cases drains

end

/-- The codecs are announced between two chunks, the second of which waits for the first. -/
private def twoChunks : List Event :=
  [.binary [0, 0, 0, 8] none, .control "avc1.64001f" none, .binary [1, 2] none, .appendEnded, .updateend none]

/-- Both are taken, the first one patched. -/
theorem two_chunks_appended :
    (run (fun _ => true) some twoChunks).appended = [patchInitSegmentHvcc [0, 0, 0, 8], [1, 2]] := by
  have whole := (queue_drains_in_order (fun _ => true) some twoChunks).2.1 rfl
  have drained : (run (fun _ => true) some twoChunks).queue = [] := rfl
  rw [drained, List.append_nil] at whole
  exact whole

end Ironsight.MsePlayer
