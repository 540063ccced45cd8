import Mathlib
import PaycloudHelper.Core.Environment
import PaycloudHelper.Library.Whitespace
import PaycloudHelper.Log.Context

/-!
# Log lines

A line that passes the sampler is written twice: as an event that the subscriber formats
for stdout, and as a text that the forwarding hook gets. The rendered timestamp is given.
-/

namespace PaycloudHelper.LogLines

open Log (Text Fields LogContext Obtained)
open Whitespace

/-! ## Forwarding -/

structure Forwarding where
  levels : UInt8
deriving DecidableEq, Repr

def forwardFatal : UInt8 := (1 : UInt8) <<< 0
def forwardError : UInt8 := (1 : UInt8) <<< 1
def forwardWarn : UInt8 := (1 : UInt8) <<< 2
def forwardInfo : UInt8 := (1 : UInt8) <<< 3
def forwardDebug : UInt8 := (1 : UInt8) <<< 4

def levelSettings : List (String × Bool × UInt8) :=
  [("LOG_FORWARD_FATAL", true, forwardFatal),
    ("LOG_FORWARD_ERROR", true, forwardError),
    ("LOG_FORWARD_WARN", false, forwardWarn),
    ("LOG_FORWARD_INFO", false, forwardInfo),
    ("LOG_FORWARD_DEBUG", false, forwardDebug)]

def enabled (env : Environment) (name : String) (default : Bool) : Bool :=
  match env name with
  | some value => (parseBoolGo value).getD default
  | none => default

def configureLogForwarding (env : Environment) : Forwarding :=
  ⟨levelSettings.foldl
    (fun levels (name, default, flag) =>
      if enabled env name default then levels ||| flag else levels) 0⟩

def levelFlag : String → UInt8
  | "fatal" => forwardFatal
  | "error" => forwardError
  | "warn" => forwardWarn
  | "info" => forwardInfo
  | "debug" => forwardDebug
  | _ => 0

/-- `None` before `configure_log_forwarding`. -/
def Forwards (config : Option Forwarding) (level : String) : Prop :=
  ∃ c, config = some c ∧ c.levels &&& levelFlag level ≠ 0

def renderForwarded (pre message : Text) : Text :=
  if pre.isEmpty then message
  else if message.isEmpty then pre
  else pre ++ ' ' :: message

def forward (config : Option Forwarding) (level : String) (pre message : Text) :
    Option (String × Text) :=
  match config with
  | none => none
  | some c =>
    if c.levels &&& levelFlag level ≠ 0 then some (level, renderForwarded pre message) else none

/-! ## Events -/

inductive Level
  | error
  | warn
  | info
  | debug
  | trace
deriving DecidableEq, Repr

structure Event where
  level : Level
  fields : List (String × Text)

structure EventFields where
  text : Text
  message : Text
  pcLevel : Option Text
  rest : List (String × Text)

def EventFields.default : EventFields := ⟨[], [], none, []⟩

def EventFields.record (fields : EventFields) : String × Text → EventFields
  | ("prefix", value) => { fields with text := value }
  | ("message", value) => { fields with message := value }
  | ("pc_level", value) => { fields with pcLevel := some value }
  | (name, value) => { fields with rest := fields.rest ++ [(name, value)] }

def levelTitle : Level → Text
  | .error => "[ERRO]".toList
  | .warn => "[WARN]".toList
  | .info => "[INFO]".toList
  | .debug | .trace => "[DBUG]".toList

def Event.recorded (event : Event) : EventFields := event.fields.foldl .record .default

def Event.title (event : Event) : Text :=
  if event.recorded.pcLevel = some "fatal".toList then "[FTAL]".toList else levelTitle event.level

def EventFields.start (fields : EventFields) : Text :=
  (if fields.text.isEmpty then []
    else trimEnd fields.text ++ if fields.message.isEmpty then [] else [' ']) ++ fields.message

def formatEvent (time : Text) (event : Event) : Text :=
  let fields := event.recorded
  event.title ++ [' '] ++ time ++ [' '] ++ fields.start ++
    fields.rest.flatMap (fun (name, value) => ' ' :: name.toList ++ '=' :: value) ++ ['\n']

/-! ## Emission -/

inductive EmitLevel
  | fatal
  | error
  | warn
  | info
  | debug
deriving DecidableEq, Repr

def EmitLevel.name : EmitLevel → String
  | .fatal => "fatal"
  | .error => "error"
  | .warn => "warn"
  | .info => "info"
  | .debug => "debug"

def EmitLevel.event (level : EmitLevel) (pre message : Text) : Event :=
  let fields := [("prefix", pre), ("message", message)]
  match level with
  | .fatal => ⟨.error, ("pc_level", "fatal".toList) :: fields⟩
  | .error => ⟨.error, fields⟩
  | .warn => ⟨.warn, fields⟩
  | .info => ⟨.info, fields⟩
  | .debug => ⟨.debug, fields⟩

theorem recorded_event (level : EmitLevel) (pre message : Text) :
    (level.event pre message).recorded =
      ⟨pre, message, if level = .fatal then some "fatal".toList else none, []⟩ := by
  cases level <;> rfl

theorem formatEvent_event (time : Text) (level : EmitLevel) (pre message : Text) :
    formatEvent time (level.event pre message) =
      (level.event pre message).title ++ ' ' :: time ++ ' ' ::
        (EventFields.start ⟨pre, message, none, []⟩ ++ ['\n']) := by
  rw [formatEvent, recorded_event]
  simp [EventFields.start]

/-! ## The two lines -/

/-- The hook, if it is called, gets what stdout shows after the timestamp. -/
def SameLine (config : Option Forwarding) (level : EmitLevel) (time pre message : Text) : Prop :=
  ∀ call ∈ forward config level.name pre message,
    formatEvent time (level.event pre message) =
      (level.event pre message).title ++ ' ' :: time ++ ' ' :: (call.2 ++ ['\n'])

theorem mem_forward {config : Option Forwarding} {level : String} {pre message : Text}
    {call : String × Text} :
    call ∈ forward config level pre message ↔
      Forwards config level ∧ call = (level, renderForwarded pre message) := by
  cases config with
  | none => simp [forward, Forwards]
  | some c => simp [forward, Forwards, eq_comm]

theorem start_eq_renderForwarded_iff (pre message : Text) :
    EventFields.start ⟨pre, message, none, []⟩ = renderForwarded pre message ↔
      trimEnd pre = pre := by
  by_cases hpre : pre = []
  · simp [EventFields.start, renderForwarded, trimEnd, hpre]
  by_cases hmessage : message = []
  · simp [EventFields.start, renderForwarded, hpre, hmessage]
  · simp [EventFields.start, renderForwarded, hpre, hmessage]

theorem sameLine_iff (config : Option Forwarding) (level : EmitLevel) (time pre message : Text) :
    SameLine config level time pre message ↔
      (Forwards config level.name → trimEnd pre = pre) := by
  constructor
  · intro h hforwards
    have hline := h _ (mem_forward.mpr ⟨hforwards, rfl⟩)
    rw [formatEvent_event, List.append_cancel_left_eq, List.cons.injEq] at hline
    have hbody := List.append_cancel_right hline.2
    exact (start_eq_renderForwarded_iff pre message).mp hbody
  · intro h call hcall
    obtain ⟨hforwards, rfl⟩ := mem_forward.mp hcall
    have hbody := (start_eq_renderForwarded_iff pre message).mpr (h hforwards)
    rw [formatEvent_event, hbody]

theorem trimEnd_buildPrefix_iff (fields : Fields) :
    trimEnd (LogContext.new fields).text = (LogContext.new fields).text ↔ fields = [] := by
  by_cases h : fields = []
  · simp [LogContext.new, Log.buildPrefix, trimEnd, h]
  have htext : (LogContext.new fields).text = ('[' :: Log.inner fields ++ [']']) ++ [' '] := by
    rw [LogContext.new, Log.buildPrefix_eq h]
    simp
  have hblank : isWhitespace ' ' = true := by decide
  rw [htext, trimEnd, List.rdropWhile_concat_pos _ _ _ hblank, iff_false_right h]
  intro hsame
  have hlong := (List.rdropWhile_prefix isWhitespace
    (l := '[' :: Log.inner fields ++ [']'])).length_le
  rw [hsame, List.length_append] at hlong
  exact absurd hlong (Nat.not_succ_le_self _)

theorem same_line_iff (config : Option Forwarding) (level : EmitLevel) (time pre message : Text) :
    (SameLine config level time pre message ↔
      ¬ Forwards config level.name ∨ trimEnd pre = pre) ∧
    ∀ fields, SameLine config level time (LogContext.new fields).text message ↔
      ¬ Forwards config level.name ∨ fields = [] := by
  constructor
  · rw [sameLine_iff, imp_iff_not_or]
  · intro fields
    rw [sameLine_iff, trimEnd_buildPrefix_iff, imp_iff_not_or]

/-- The hook gets two blanks where stdout shows one. -/
theorem context_lines_differ :
    let pre := (LogContext.new [("req_id".toList, "abc".toList)]).text
    let config := some (configureLogForwarding fun _ => none)
    forward config "error" pre "paid".toList = some ("error", "[req_id=abc]  paid".toList) ∧
      formatEvent "12:00".toList (EmitLevel.error.event pre "paid".toList) =
        "[ERRO] 12:00 [req_id=abc] paid\n".toList ∧
      ¬ SameLine config .error "12:00".toList pre "paid".toList := by
  have hforward : forward (some (configureLogForwarding fun _ => none)) "error"
      (LogContext.new [("req_id".toList, "abc".toList)]).text "paid".toList =
        some ("error", "[req_id=abc]  paid".toList) := by decide
  refine ⟨hforward, by decide, fun h => ?_⟩
  have hline := h _ hforward
  revert hline
  decide

end PaycloudHelper.LogLines
