import Mathlib
import PaycloudHelper.Library.Splitting
import PaycloudHelper.Log.Lines

/-!
# Sentry issues

What becomes of a log line in Sentry. A line gets here if it has passed the sampler; its
text is the prefix and the message as the forwarding hook puts them together.
-/

namespace PaycloudHelper.Sentry

open Log (Text Fields LogContext)
open LogLines
open Splitting (splitOnce)
open Whitespace

/-! ## What is logged -/

def logModulePrefix : Text := "pchelper".toList

def functionName (name : Text) : Text :=
  if (trimChars name).isEmpty then "Log".toList else trimChars name

def buildLogPrefix (name : Text) : Text :=
  if logModulePrefix.isEmpty then '[' :: functionName name ++ [']']
  else '[' :: (logModulePrefix ++ '.' :: functionName name) ++ [']']

def withSuffix (message : Text) (suppressed : ℤ) : Text :=
  if 0 < suppressed then
    message ++ " [+".toList ++ (toString suppressed).toList ++ " suppressed]".toList
  else message

/-! ## What is captured -/

def defaultExceptionType : Text := "Log".toList

def issueTitle (func env : Text) : Text := '[' :: func ++ "] [env=".toList ++ env ++ [']']

def exceptionValue (level msg : Text) : Text := '[' :: level ++ "] ".toList ++ msg

def stripBracket : Text → Option Text
  | [] => none
  | c :: rest => if c = '[' then some rest else none

def extractLogPrefix (message : Text) : Text × Text :=
  let msg := trimChars message
  match stripBracket msg with
  | some rest =>
    match splitOnce [']'] rest with
    | some (exType, exValue) =>
      if exType.isEmpty then (defaultExceptionType, msg) else (exType, trimChars exValue)
    | none => (defaultExceptionType, msg)
  | none => (defaultExceptionType, msg)

inductive SentryLevel
  | fatal
  | error
  | warning
  | info
  | debug
deriving DecidableEq, Repr

def sentryLevelFor : String → SentryLevel
  | "fatal" => .fatal
  | "error" => .error
  | "warn" => .warning
  | "info" => .info
  | _ => .debug

structure SentryData where
  service : Text
  module : Text
  function : Text
deriving DecidableEq, Repr

def SentryData.toMap (data : SentryData) : List (String × Text) :=
  [("service", data.service), ("module", data.module), ("function", data.function)]

structure Breadcrumb where
  category : String
  message : Text
  level : SentryLevel
  data : List (String × Text)
deriving DecidableEq, Repr

structure Exception where
  type : Text
  value : Text
deriving DecidableEq, Repr

structure Captured where
  breadcrumb : Option Breadcrumb
  level : SentryLevel
  message : Text
  exception : Option Exception
deriving DecidableEq, Repr

/-- `client` is the environment of the client that is bound, if one is. -/
structure Hub where
  client : Option (Option Text)
  data : Option SentryData
  appEnv : Text

def resolveEnv (hub : Hub) : Text :=
  match hub.client with
  | some (some env) => if env.isEmpty then hub.appEnv else env
  | some none | none => hub.appEnv

def receiveLog (hub : Hub) (level : String) (message : Text) : Option Captured :=
  if hub.client.isNone then none
  else
    let sentryLevel := sentryLevelFor level
    let breadcrumb := hub.data.map fun data => ⟨level, message, sentryLevel, data.toMap⟩
    if level = "error" ∨ level = "fatal" then
      let (exType, exValue) := extractLogPrefix message
      some ⟨breadcrumb, sentryLevel, message, some ⟨issueTitle exType (resolveEnv hub),
        exceptionValue level.toList exValue⟩⟩
    else some ⟨breadcrumb, sentryLevel, message, none⟩

def capture (config : Option Forwarding) (hub : Hub) (level : EmitLevel) (pre message : Text)
    (suppressed : ℤ) : Option Captured :=
  (forward config level.name pre (withSuffix message suppressed)).bind fun (name, text) =>
    receiveLog hub name text

def issue (config : Option Forwarding) (hub : Hub) (level : EmitLevel) (pre message : Text)
    (suppressed : ℤ) : Option Exception :=
  (capture config hub level pre message suppressed).bind Captured.exception

/-! ## The type of an exception -/

section
variable {text rest inner after : Text} {c : Char}

theorem stripBracket_cons (c : Char) (rest : Text) :
    stripBracket (c :: rest) = if c = '[' then some rest else none := rfl

theorem trimChars_of_dropWhile (h : text.dropWhile isWhitespace = c :: rest) :
    trimChars text = c :: trimEnd rest := by
  rw [trimChars_eq, h, ← List.nil_append (c :: rest),
    trimEnd_append_cons (isWhitespace_of_dropWhile h), List.nil_append]

theorem extract_of_other (h : text.dropWhile isWhitespace = c :: rest) (hc : c ≠ '[') :
    extractLogPrefix text = (defaultExceptionType, trimChars text) := by
  unfold extractLogPrefix
  rw [trimChars_of_dropWhile h]
  simp only [stripBracket_cons, if_neg hc]

theorem extract_of_bracket (h : text.dropWhile isWhitespace = '[' :: (inner ++ ']' :: after))
    (hinner : ']' ∉ inner) : extractLogPrefix text =
      if inner = [] then (defaultExceptionType, trimChars text) else (inner, trimChars after) := by
  have htrim : trimChars text = '[' :: (inner ++ ']' :: trimEnd after) := by
    rw [trimChars_of_dropWhile h, trimEnd_append_cons (by decide)]
  unfold extractLogPrefix
  rw [htrim]
  simp only [stripBracket_cons, if_true, Splitting.splitOnce_singleton_of_append hinner,
    List.isEmpty_iff, trimChars_trimEnd]

theorem extract_of_unclosed (h : text.dropWhile isWhitespace = '[' :: rest) (hrest : ']' ∉ rest) :
    extractLogPrefix text = (defaultExceptionType, trimChars text) := by
  have hend : ']' ∉ trimEnd rest :=
    fun hmem => hrest ((List.rdropWhile_prefix isWhitespace _).subset hmem)
  unfold extractLogPrefix
  rw [trimChars_of_dropWhile h]
  simp only [stripBracket_cons, if_true, Splitting.splitOnce_singleton_of_notMem hend]

end

/-! ## Which lines go into one issue -/

/-- The prefix is not blank, and closes the bracket if it begins with one. -/
def Grouped (pre : Text) : Prop :=
  ∃ c rest, pre.dropWhile isWhitespace = c :: rest ∧ (c = '[' → ']' ∈ rest)

section
variable {pre : Text}

theorem Grouped.ne_nil (h : Grouped pre) : pre ≠ [] := by
  rintro rfl
  obtain ⟨c, rest, h, -⟩ := h
  cases h

theorem dropWhile_append {c : Char} {rest : Text} (h : pre.dropWhile isWhitespace = c :: rest)
    (tail : Text) : (pre ++ tail).dropWhile isWhitespace = c :: (rest ++ tail) := by
  rw [List.dropWhile_append, h]
  rfl

theorem Grouped.type_append (h : Grouped pre) (tail : Text) :
    (extractLogPrefix (pre ++ tail)).1 = (extractLogPrefix pre).1 := by
  obtain ⟨c, rest, hpre, hclosed⟩ := h
  have htail := dropWhile_append hpre tail
  by_cases hc : c = '['
  · subst hc
    obtain ⟨inner, after, rfl, hinner⟩ := List.eq_append_cons_of_mem (hclosed rfl)
    rw [List.append_assoc, List.cons_append] at htail
    rw [extract_of_bracket htail hinner, extract_of_bracket hpre hinner]
    split_ifs <;> rfl
  · rw [extract_of_other htail hc, extract_of_other hpre hc]

theorem renderForwarded_append {message : Text} (h : pre ≠ []) :
    ∃ tail, renderForwarded pre message = pre ++ tail := by
  unfold renderForwarded
  by_cases hmessage : message = []
  · exact ⟨[], by simp [h, hmessage]⟩
  · exact ⟨' ' :: message, by simp [h, hmessage]⟩

theorem types_differ (h : ¬ Grouped pre) :
    ∃ m m', (extractLogPrefix (renderForwarded pre m)).1 ≠
      (extractLogPrefix (renderForwarded pre m')).1 := by
  cases hpre : pre.dropWhile isWhitespace with
  | nil =>
    have hblank : ∀ c ∈ pre, isWhitespace c = true := List.dropWhile_eq_nil_iff.mp hpre
    have hrendered : ∀ (c : Char) (m : Text), isWhitespace c = false →
        (renderForwarded pre (c :: m)).dropWhile isWhitespace = c :: m := by
      intro c m hc
      unfold renderForwarded
      split_ifs with hempty
      · simp [hc]
      · simp_all
      · rw [List.dropWhile_append_of_pos hblank]
        have hspace : isWhitespace ' ' = true := by decide
        simp [hspace, hc]
    refine ⟨['[', 'a', ']'], ['b'], ?_⟩
    have hopen : (renderForwarded pre ['[', 'a', ']']).dropWhile isWhitespace =
        '[' :: (['a'] ++ ']' :: []) := hrendered '[' ['a', ']'] (by decide)
    rw [extract_of_bracket hopen (by decide),
      extract_of_other (hrendered 'b' [] (by decide)) (by decide), if_neg (by simp)]
    exact (by decide : ['a'] ≠ defaultExceptionType)
  | cons c rest =>
    have hc : c = '[' := by
      by_contra hc
      exact h ⟨c, rest, hpre, fun heq => absurd heq hc⟩
    subst hc
    have hrest : ']' ∉ rest := fun hmem => h ⟨'[', rest, hpre, fun _ => hmem⟩
    have hne : pre ≠ [] := by
      rintro rfl
      cases hpre
    refine ⟨['x'], ['x', ']'], ?_⟩
    have hunclosed : (renderForwarded pre ['x']).dropWhile isWhitespace =
        '[' :: (rest ++ [' ', 'x']) := by
      simpa [renderForwarded, hne] using dropWhile_append hpre [' ', 'x']
    have hclosed : (renderForwarded pre ['x', ']']).dropWhile isWhitespace =
        '[' :: ((rest ++ [' ', 'x']) ++ ']' :: []) := by
      simpa [renderForwarded, hne] using dropWhile_append hpre [' ', 'x', ']']
    have hnone : ']' ∉ rest ++ [' ', 'x'] := by simp [hrest]
    rw [extract_of_unclosed hunclosed hnone, extract_of_bracket hclosed hnone,
      if_neg (by simp)]
    intro hsame
    have hblank : ' ' ∈ defaultExceptionType := by
      rw [show defaultExceptionType = rest ++ [' ', 'x'] from hsame]
      simp
    revert hblank
    decide

/-! ## The prefixes that are in use -/

theorem buildLogPrefix_eq (name : Text) :
    buildLogPrefix name = '[' :: ((logModulePrefix ++ '.' :: functionName name) ++ ']' :: []) := rfl

theorem notMem_functionName {name : Text} (h : ']' ∉ name) :
    ']' ∉ logModulePrefix ++ '.' :: functionName name := by
  have hmodule : ']' ∉ logModulePrefix := by decide
  have hname : ']' ∉ functionName name := by
    unfold functionName
    split_ifs
    · decide
    · exact fun hmem => h (mem_of_mem_trimChars hmem)
  simp [hmodule, hname]

theorem trimChars_blank (text : Text) : trimChars (' ' :: text) = trimChars text := rfl

theorem extract_buildLogPrefix {name : Text} (h : ']' ∉ name) (message : Text) :
    extractLogPrefix (renderForwarded (buildLogPrefix name) message) =
      (logModulePrefix ++ '.' :: functionName name, trimChars message) := by
  obtain ⟨tail, hrendered, htail⟩ : ∃ tail, renderForwarded (buildLogPrefix name) message =
      buildLogPrefix name ++ tail ∧ trimChars tail = trimChars message := by
    by_cases hmessage : message = []
    · exact ⟨[], by simp [renderForwarded, hmessage], by rw [hmessage]⟩
    · refine ⟨' ' :: message, ?_, trimChars_blank message⟩
      simp [renderForwarded, hmessage, buildLogPrefix_eq]
  have hopen : (buildLogPrefix name ++ tail).dropWhile isWhitespace =
      '[' :: ((logModulePrefix ++ '.' :: functionName name) ++ ']' :: tail) := by
    have hhead : isWhitespace '[' = false := by decide
    rw [buildLogPrefix_eq]
    simp [hhead]
  rw [hrendered, extract_of_bracket hopen (notMem_functionName h), if_neg (by simp), htail]

theorem grouped_context_iff (fields : Fields) :
    Grouped (LogContext.new fields).text ↔ fields ≠ [] := by
  constructor
  · rintro hgrouped rfl
    exact hgrouped.ne_nil rfl
  · intro h
    refine ⟨'[', Log.inner fields ++ [']', ' '], ?_, fun _ => by simp⟩
    have hhead : isWhitespace '[' = false := by decide
    rw [LogContext.new, Log.buildPrefix_eq h]
    simp [hhead]

end

/-! ## Issues -/

section
variable {config : Option Forwarding} {hub : Hub} {level : EmitLevel}

theorem issue_eq (herror : level = .error ∨ level = .fatal) (hforwards : Forwards config level.name)
    (hclient : hub.client.isSome = true) (pre message : Text) (suppressed : ℤ) :
    issue config hub level pre message suppressed =
      let text := renderForwarded pre (withSuffix message suppressed)
      some ⟨issueTitle (extractLogPrefix text).1 (resolveEnv hub),
        exceptionValue level.name.toList (extractLogPrefix text).2⟩ := by
  have hforward : forward config level.name pre (withSuffix message suppressed) =
      some (level.name, renderForwarded pre (withSuffix message suppressed)) :=
    mem_forward.mpr ⟨hforwards, rfl⟩
  have hname : level.name = "error" ∨ level.name = "fatal" := by
    rcases herror with rfl | rfl
    · exact Or.inl rfl
    · exact Or.inr rfl
  have hnone : hub.client.isNone = false := by simpa using hclient
  simp [issue, capture, hforward, receiveLog, hnone, hname]

theorem issueTitle_inj {func func' env : Text} (h : issueTitle func env = issueTitle func' env) :
    func = func' := by
  simpa [issueTitle] using h

/-- One prefix makes one issue, whatever is logged, exactly if it is grouped. The prefixes of
functions are, with the trimmed message as the value; a context is, unless it is empty. -/
theorem issues_group_by_prefix (herror : level = .error ∨ level = .fatal)
    (hforwards : Forwards config level.name) (hclient : hub.client.isSome = true) :
    (∀ pre, (∀ m n m' n', (issue config hub level pre m n).map Exception.type =
        (issue config hub level pre m' n').map Exception.type) ↔ Grouped pre) ∧
      (∀ name m n, ']' ∉ name → issue config hub level (buildLogPrefix name) m n =
        some ⟨issueTitle (logModulePrefix ++ '.' :: functionName name) (resolveEnv hub),
          exceptionValue level.name.toList (trimChars (withSuffix m n))⟩) ∧
      ∀ fields, Grouped (LogContext.new fields).text ↔ fields ≠ [] := by
  have hissue := issue_eq herror hforwards hclient
  refine ⟨fun pre => ⟨fun hsame => ?_, fun hgrouped m n m' n' => ?_⟩, fun name m n hname => ?_,
    grouped_context_iff⟩
  · by_contra hgrouped
    obtain ⟨m, m', hne⟩ := types_differ hgrouped
    have htitle := hsame m 0 m' 0
    rw [hissue, hissue] at htitle
    exact hne (issueTitle_inj (Option.some.inj htitle))
  · obtain ⟨tail, htail⟩ := @renderForwarded_append pre (withSuffix m n) hgrouped.ne_nil
    obtain ⟨tail', htail'⟩ := @renderForwarded_append pre (withSuffix m' n') hgrouped.ne_nil
    rw [hissue, hissue]
    dsimp only [Option.map_some]
    rw [htail, htail', hgrouped.type_append, hgrouped.type_append]
  · rw [hissue]
    dsimp only
    rw [extract_buildLogPrefix hname]

theorem issues_group_by_prefix_fatal :
    let config := some (configureLogForwarding fun _ => none)
    let hub : Hub := ⟨some (some "staging".toList), none, []⟩
    (∀ pre, (∀ m n m' n', (issue config hub .fatal pre m n).map Exception.type =
        (issue config hub .fatal pre m' n').map Exception.type) ↔ Grouped pre) ∧
      (∀ name m n, ']' ∉ name → issue config hub .fatal (buildLogPrefix name) m n =
        some ⟨issueTitle (logModulePrefix ++ '.' :: functionName name) (resolveEnv hub),
          exceptionValue EmitLevel.fatal.name.toList (trimChars (withSuffix m n))⟩) ∧
      ∀ fields, Grouped (LogContext.new fields).text ↔ fields ≠ [] :=
  issues_group_by_prefix (Or.inr rfl) ⟨_, rfl, by decide⟩ rfl

end

end PaycloudHelper.Sentry
