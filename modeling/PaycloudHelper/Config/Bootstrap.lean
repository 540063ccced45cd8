import Mathlib
import PaycloudHelper.Core.Environment
import PaycloudHelper.Log.Sampler

/-!
# Starting a service

The `.env` file that is looked for, what a start does with it and with the identity, and what
it reports. The files lie still; reading one is a parameter.
-/

namespace PaycloudHelper.Bootstrap

open LogSampler (AppEnv)

/-! ## The file -/

/-- Directories are given by their components from the root. -/
structure Files where
  pathExists : String → Bool
  currentDir : Option (List String)
  exeDir : Option (List String)

def dotEnv (dir : List String) : String := String.join (dir.map ("/" ++ ·)) ++ "/.env"

def Files.overrides (files : Files) (vars : Environment) : Option String :=
  ["ENV_FILE", "DOTENV_PATH"].findSome? fun key =>
    (vars key).filter fun p => !p.isEmpty && files.pathExists p

def Files.walkUp (files : Files) : ℕ → List String → Option String
  | 0, _ => none
  | n + 1, dir =>
    if dir = [] then none
    else if files.pathExists (dotEnv dir.dropLast) then some (dotEnv dir.dropLast)
    else files.walkUp n dir.dropLast

def Files.inDir (files : Files) (dir : List String) : Option String :=
  if files.pathExists (dotEnv dir) then some (dotEnv dir) else none

def findEnvPath (files : Files) (vars : Environment) : Option String :=
  (files.overrides vars).or <|
    (files.currentDir.bind fun wd => (files.inDir wd).or (files.walkUp 5 wd)).or <|
      (files.exeDir.bind files.inDir).or (["/app/.env", "/.env"].find? files.pathExists)

/-- Reading a file, or the one that the library finds by itself. It sets what is not set, and
to read the same file again sets nothing. -/
structure Loader where
  load : Option String → Environment → Environment
  keeps : ∀ path vars key value, vars key = some value → load path vars key = some value
  again : ∀ path vars, load path (load path vars) = load path vars

/-! ## The start -/

def AppEnv.parse (s : String) : Option AppEnv :=
  if s ∈ ["develop", "developement", "dev"] then some .develop
  else if s ∈ ["staging", "stg"] then some .staging
  else if s ∈ ["production", "prod"] then some .production
  else none

def AppEnv.asStr : AppEnv → String
  | .develop => "develop"
  | .staging => "staging"
  | .production => "production"

inductive Level
  | warning
  | error
deriving DecidableEq, Repr

structure ConfigError where
  field : String
  message : String
  level : Level
deriving DecidableEq, Repr

def ConfigError.warn (field message : String) : ConfigError := ⟨field, message, .warning⟩

structure Process where
  vars : Environment
  appName : String
  appEnvRaw : String

def appEnv (p : Process) : Option AppEnv := AppEnv.parse p.appEnvRaw

def nonempty (vars : Environment) (key : String) : Option String :=
  (vars key).filter fun v => !v.isEmpty

def envNonempty (vars : Environment) (key : String) : Bool := (nonempty vars key).isSome

def audittrailKeyAliases : List (List String) :=
  [["RABBITMQ_HOST", "RQ_HOST"], ["RABBITMQ_PORT", "RQ_PORT"],
    ["RABBITMQ_VIRTUAL_HOST_AUDITTRAIL", "RQ_VHOST"],
    ["RABBITMQ_USERNAME_AUDITTRAIL", "RQ_USERNAME"],
    ["RABBITMQ_PASSWORD_AUDITTRAIL", "RQ_PASSWORD"],
    ["RABBITMQ_QUEUE_AUDITTRAIL", "RQ_QUEUE_AUDITTRAIL"]]

section
variable (loader : Loader) (files : Files)

def loadDotenv (vars : Environment) : Environment := loader.load (findEnvPath files vars) vars

def started (p : Process) : Process :=
  let vars := loadDotenv loader files p.vars
  { vars
    appName := (nonempty vars "APP_NAME").getD p.appName
    appEnvRaw := ((nonempty vars "APP_ENV").or (nonempty vars "APP_MODE")).getD p.appEnvRaw }

end

/-! ## Where the file is looked for -/

def ancestors : ℕ → List String → List (List String)
  | 0, _ => []
  | n + 1, dir => dir :: if dir = [] then [] else ancestors n dir.dropLast

/-- What the operator names, the working directory and five above it, the directory of the
binary, and where containers mount secrets. -/
def Files.candidates (files : Files) (vars : Environment) : List String :=
  ["ENV_FILE", "DOTENV_PATH"].filterMap (nonempty vars) ++
    ((files.currentDir.elim [] (ancestors 6)).map dotEnv ++
      ((files.exeDir.toList.map dotEnv) ++ ["/app/.env", "/.env"]))

theorem findSome_nonempty (files : Files) (vars : Environment) (keys : List String) :
    (keys.findSome? fun key => (vars key).filter fun p => !p.isEmpty && files.pathExists p) =
      (keys.filterMap (nonempty vars)).find? files.pathExists := by
  induction keys with
  | nil => rfl
  | cons key keys ih =>
    rw [List.findSome?_cons, ih, List.filterMap_cons, nonempty]
    cases vars key with
    | none => rfl
    | some value =>
      cases hempty : value.isEmpty <;> cases hexists : files.pathExists value <;>
        simp [Option.filter, hempty, hexists]

theorem Files.inDir_or (files : Files) (dir : List String) (rest : Option String) :
    (files.inDir dir).or rest =
      if files.pathExists (dotEnv dir) then some (dotEnv dir) else rest := by
  unfold Files.inDir
  split_ifs <;> rfl

theorem walk_eq (files : Files) (n : ℕ) (dir : List String) :
    (files.inDir dir).or (files.walkUp n dir) =
      ((ancestors (n + 1) dir).map dotEnv).find? files.pathExists := by
  induction n generalizing dir with
  | zero =>
    rw [Files.inDir_or, Files.walkUp, ancestors, ancestors, ite_self]
    cases h : files.pathExists (dotEnv dir) <;> simp [h]
  | succ n ih =>
    have hup := ih dir.dropLast
    rw [Files.inDir_or] at hup
    have hdirs : ancestors (n + 1 + 1) dir =
      dir :: if dir = [] then [] else ancestors (n + 1) dir.dropLast := rfl
    rw [Files.inDir_or, Files.walkUp, hup, hdirs, List.map_cons, List.find?_cons]
    cases files.pathExists (dotEnv dir) with
    | true => rfl
    | false =>
      rw [if_neg (by decide)]
      by_cases hroot : dir = []
      · rw [if_pos hroot, if_pos hroot]
        rfl
      · rw [if_neg hroot, if_neg hroot]

theorem findEnvPath_eq (files : Files) (vars : Environment) :
    findEnvPath files vars = (files.candidates vars).find? files.pathExists := by
  unfold findEnvPath Files.candidates
  rw [List.find?_append, List.find?_append, List.find?_append, Files.overrides, findSome_nonempty]
  congr 1
  congr 1
  · cases files.currentDir with
    | none => rfl
    | some wd => exact walk_eq files 5 wd
  · congr 1
    cases files.exeDir with
    | none => rfl
    | some dir =>
      have hdir := files.inDir_or dir none
      rw [Option.or_none] at hdir
      rw [Option.bind_some, hdir]
      cases h : files.pathExists (dotEnv dir) <;> simp [h]

/-! ## Starting again -/

section
variable {loader : Loader} {files : Files} {p : Process}

def pointers (vars : Environment) : Option String × Option String :=
  (vars "ENV_FILE", vars "DOTENV_PATH")

theorem findEnvPath_congr {vars vars' : Environment} (h : pointers vars = pointers vars') :
    findEnvPath files vars = findEnvPath files vars' := by
  obtain ⟨hfile, hpath⟩ := Prod.mk.inj h
  unfold findEnvPath Files.overrides
  simp only [List.findSome?_cons, List.findSome?_nil, hfile, hpath]

theorem started_started (h : loadDotenv loader files (started loader files p).vars =
    (started loader files p).vars) :
    started loader files (started loader files p) = started loader files p := by
  have hagain : ∀ (o : Option String) (d : String), o.getD (o.getD d) = o.getD d := by
    intro o d
    cases o <;> rfl
  generalize hq : started loader files p = q at h
  have hname : (nonempty q.vars "APP_NAME").getD q.appName = q.appName := by
    rw [← hq]
    exact hagain _ _
  have henv : ((nonempty q.vars "APP_ENV").or (nonempty q.vars "APP_MODE")).getD q.appEnvRaw =
      q.appEnvRaw := by
    rw [← hq]
    exact hagain _ _
  unfold started
  simp only [h, hname, henv]

theorem settled_of_pointers
    (h : pointers (started loader files p).vars = pointers p.vars) :
    started loader files (started loader files p) = started loader files p := by
  apply started_started
  change loader.load (findEnvPath files (started loader files p).vars) _ = _
  rw [findEnvPath_congr h]
  exact loader.again _ _

def pointersSet (vars : Environment) : ℕ :=
  (vars "ENV_FILE").isSome.toNat + (vars "DOTENV_PATH").isSome.toNat

theorem pointersSet_le (vars : Environment) : pointersSet vars ≤ 2 :=
  Nat.add_le_add (Bool.toNat_le _) (Bool.toNat_le _)

theorem isSome_mono (loader : Loader) (files : Files) (p : Process) (key : String) :
    (p.vars key).isSome.toNat ≤ ((started loader files p).vars key).isSome.toNat ∧
      ((p.vars key).isSome.toNat = ((started loader files p).vars key).isSome.toNat →
        (started loader files p).vars key = p.vars key) := by
  cases hkey : p.vars key with
  | none => cases (started loader files p).vars key <;> simp
  | some value =>
    have hkept : (started loader files p).vars key = some value := loader.keeps _ _ _ _ hkey
    simp [hkept]

theorem pointersSet_lt (h : pointers (started loader files p).vars ≠ pointers p.vars) :
    pointersSet p.vars < pointersSet (started loader files p).vars := by
  obtain ⟨hfile, hfile'⟩ := isSome_mono loader files p "ENV_FILE"
  obtain ⟨hpath, hpath'⟩ := isSome_mono loader files p "DOTENV_PATH"
  by_contra hle
  unfold pointersSet at hle
  exact h (Prod.ext (hfile' (by omega)) (hpath' (by omega)))

theorem iterate_settled {k : ℕ} (h : started loader files ((started loader files)^[k] p) =
    (started loader files)^[k] p) (n : ℕ) :
    (started loader files)^[n + k] p = (started loader files)^[k] p := by
  rw [Function.iterate_add_apply]
  exact Function.iterate_fixed h n

theorem settled_third : started loader files ((started loader files)^[3] p) =
    (started loader files)^[3] p := by
  by_cases hfirst : pointers (started loader files p).vars = pointers p.vars
  · have hfixed := settled_of_pointers hfirst
    simp only [Function.iterate_succ, Function.iterate_zero, Function.comp_apply, id_eq, hfixed]
  · by_cases hsecond : pointers (started loader files (started loader files p)).vars =
        pointers (started loader files p).vars
    · have hfixed := settled_of_pointers hsecond
      simp only [Function.iterate_succ, Function.iterate_zero, Function.comp_apply, id_eq, hfixed]
    · -- both pointers are set by now
      have hlt := pointersSet_lt hfirst
      have hlt' := pointersSet_lt hsecond
      refine settled_of_pointers (by_contra fun hthird => ?_)
      have hlt'' := pointersSet_lt hthird
      have hle := pointersSet_le
        (started loader files (started loader files (started loader files p))).vars
      omega

end

/-! ## The identity -/

/-- What the starts so far have come to: what was set is as it was, and the identity is what the
variables now say, or what it was. -/
structure Identified (p p' : Process) : Prop where
  vars : ∀ key value, p.vars key = some value → p'.vars key = some value
  appName : p'.appName = (nonempty p'.vars "APP_NAME").getD p.appName
  appEnvRaw : p'.appEnvRaw =
    ((nonempty p'.vars "APP_ENV").or (nonempty p'.vars "APP_MODE")).getD p.appEnvRaw

theorem Identified.started (loader : Loader) (files : Files) (p : Process) :
    Identified p (started loader files p) where
  vars _ _ h := loader.keeps _ _ _ _ h
  appName := rfl
  appEnvRaw := rfl

theorem nonempty_kept {vars vars' : Environment}
    (h : ∀ key value, vars key = some value → vars' key = some value) {key value : String}
    (hkey : nonempty vars key = some value) : nonempty vars' key = some value := by
  obtain ⟨hset, hvalue⟩ := Option.filter_eq_some_iff.mp hkey
  exact Option.filter_eq_some_iff.mpr ⟨h key value hset, hvalue⟩

theorem Identified.trans {p p' p'' : Process} (h : Identified p p') (h' : Identified p' p'') :
    Identified p p'' where
  vars key value hkey := h'.vars key value (h.vars key value hkey)
  appName := by
    rw [h'.appName, h.appName]
    cases hname : nonempty p'.vars "APP_NAME" with
    | none => rfl
    | some name => rw [nonempty_kept h'.vars hname]; rfl
  appEnvRaw := by
    rw [h'.appEnvRaw, h.appEnvRaw]
    cases henv : nonempty p'.vars "APP_ENV" with
    | some env => rw [nonempty_kept h'.vars henv]; rfl
    | none =>
      cases hmode : nonempty p'.vars "APP_MODE" with
      | none => rfl
      | some mode =>
        rw [nonempty_kept h'.vars hmode]
        cases nonempty p''.vars "APP_ENV" <;> rfl

theorem identified_iterate (loader : Loader) (files : Files) (p : Process) (n : ℕ) :
    Identified p ((started loader files)^[n + 1] p) := by
  induction n with
  | zero => exact .started loader files p
  | succ n ih =>
    rw [Function.iterate_succ_apply']
    exact ih.trans (.started loader files _)

/-- A start reads the first candidate that exists. However often a service is started over files
that lie still, the third start is the last that changes anything, and the first is unless it
sets a variable that names a file. Whatever was set stays, and the identity follows it. -/
theorem starts_settle (loader : Loader) (files : Files) (p : Process) :
    (started loader files p).vars =
        loader.load ((files.candidates p.vars).find? files.pathExists) p.vars ∧
      (∀ n, (started loader files)^[n + 3] p = (started loader files)^[3] p) ∧
      (pointers (started loader files p).vars = pointers p.vars →
        ∀ n, (started loader files)^[n + 1] p = started loader files p) ∧
      ∀ n, let p' := (started loader files)^[n + 1] p
        (∀ key value, p.vars key = some value → p'.vars key = some value) ∧
          p'.appName = (nonempty p'.vars "APP_NAME").getD p.appName ∧
          p'.appEnvRaw =
            ((nonempty p'.vars "APP_ENV").or (nonempty p'.vars "APP_MODE")).getD p.appEnvRaw := by
  refine ⟨?_, iterate_settled settled_third, fun h => iterate_settled (settled_of_pointers h),
    fun n => ?_⟩
  · rw [← findEnvPath_eq]
    rfl
  · obtain ⟨hvars, hname, henv⟩ := identified_iterate loader files p n
    exact ⟨hvars, hname, henv⟩

/-! A loader that reads lines, each of which sets what is not set. -/

def setUnset (vars : Environment) (line : String × String) : Environment :=
  if (vars line.1).isSome then vars else Function.update vars line.1 (some line.2)

theorem setUnset_keeps {vars : Environment} {key value : String} (h : vars key = some value)
    (line : String × String) : setUnset vars line key = some value := by
  unfold setUnset
  split_ifs with hset
  · exact h
  · have hne : key ≠ line.1 := by
      rintro rfl
      simp [h] at hset
    rw [Function.update_of_ne hne, h]

theorem setUnset_isSome (vars : Environment) (line : String × String) :
    (setUnset vars line line.1).isSome := by
  unfold setUnset
  split_ifs with hset
  · exact hset
  · simp

theorem foldl_setUnset_keeps (lines : List (String × String)) {vars : Environment}
    {key value : String} (h : vars key = some value) :
    lines.foldl setUnset vars key = some value := by
  induction lines generalizing vars with
  | nil => exact h
  | cons line lines ih => exact ih (setUnset_keeps h line)

theorem foldl_setUnset_isSome {lines : List (String × String)} (vars : Environment)
    {line : String × String} (h : line ∈ lines) : (lines.foldl setUnset vars line.1).isSome := by
  induction lines generalizing vars with
  | nil => cases h
  | cons head lines ih =>
    rcases List.mem_cons.mp h with rfl | h
    · obtain ⟨value, hvalue⟩ := Option.isSome_iff_exists.mp (setUnset_isSome vars line)
      simp [foldl_setUnset_keeps lines hvalue]
    · exact ih (setUnset vars head) h

theorem foldl_setUnset_of_set {lines : List (String × String)} {vars : Environment}
    (h : ∀ line ∈ lines, (vars line.1).isSome) : lines.foldl setUnset vars = vars := by
  induction lines with
  | nil => rfl
  | cons line lines ih =>
    obtain ⟨hline, hlines⟩ := List.forall_mem_cons.mp h
    rw [List.foldl_cons, setUnset, if_pos hline, ih hlines]

def Loader.ofLines (lines : Option String → List (String × String)) : Loader where
  load path vars := (lines path).foldl setUnset vars
  keeps path _ _ _ h := foldl_setUnset_keeps (lines path) h
  again _ vars := foldl_setUnset_of_set fun _ hline => foldl_setUnset_isSome vars hline

def chained : Loader := .ofLines fun
  | some "/srv/.env" => [("DOTENV_PATH", "/b")]
  | some "/b" => [("ENV_FILE", "/c")]
  | some "/c" => [("APP_NAME", "svc")]
  | _ => []

def inSrv : Files := ⟨(· ∈ ["/srv/.env", "/b", "/c"]), some ["srv", "bin"], none⟩

def blankProcess : Process := ⟨fun _ => none, "", ""⟩

theorem starts_settle_third :
    (∀ n, (started chained inSrv)^[n + 3] blankProcess =
        (started chained inSrv)^[3] blankProcess) ∧
      (∀ n, (started chained ⟨fun _ => false, none, none⟩)^[n + 1] blankProcess =
        started chained ⟨fun _ => false, none, none⟩ blankProcess) ∧
      ((started chained inSrv)^[2] blankProcess).appName = "" ∧
      ((started chained inSrv)^[3] blankProcess).appName = "svc" :=
  ⟨(starts_settle chained inSrv blankProcess).2.1,
    (starts_settle chained ⟨fun _ => false, none, none⟩ blankProcess).2.2.1 rfl,
    by decide, by decide⟩

/-! ## What a start reports -/

def Reports (field : String) (findings : List ConfigError) : Prop :=
  findings = [] ∨ ∃ message, findings = [.warn field message]

theorem Reports.fields {field : String} {findings : List ConfigError} {passes : Bool}
    (h : Reports field findings) (hpasses : findings = [] ↔ passes = true) :
    findings.map (·.field) = ([(field, passes)].filter fun check => !check.2).map (·.1) := by
  rcases h with rfl | ⟨message, rfl⟩
  · rw [hpasses.mp rfl]
    rfl
  · have hfails : passes = false := by simpa using hpasses
    rw [hfails]
    rfl

theorem Reports.level {field : String} {findings : List ConfigError} (h : Reports field findings) :
    ∀ e ∈ findings, e.level = .warning := by
  rcases h with rfl | ⟨message, rfl⟩
  · simp
  · simp [ConfigError.warn]

def checks (p : Process) : List (String × Bool) :=
  [("APP_NAME", envNonempty p.vars "APP_NAME"),
    ("APP_ENV",
      (nonempty p.vars "APP_ENV").getD p.appEnvRaw ∈ ["develop", "staging", "production"]),
    ("SENTRY_DSN", envNonempty p.vars "SENTRY_DSN"),
    ("RabbitMQ", audittrailKeyAliases.all fun row => row.any (envNonempty p.vars))]

end PaycloudHelper.Bootstrap
