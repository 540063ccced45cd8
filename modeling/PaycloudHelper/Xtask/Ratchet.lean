import Mathlib
import PaycloudHelper.Library.Results
import PaycloudHelper.Library.Splitting
import PaycloudHelper.Xtask.LintSources

/-!
# The mirrors ratchet

What `cargo xtask lint-mirrors` reads, prints and writes. The crates are trees of files in
the order in which the system lists them; a path is the names that lead to it.
-/

namespace PaycloudHelper.LintMirrors

open Whitespace
open Splitting (rsplitOnce)

/-! ## Collecting -/

inductive Tree
  | file (name : Text) (contents : Except Text Text)
  | dir (name : Text) (failure : Option Text) (entries : List Tree)

/-- `src` is the `src` directory of a crate. -/
structure Workspace where
  root : Text
  src : Text → Option Tree

structure File where
  path : List Text
  contents : Except Text Text

def scope : List Text :=
  ["pc-amqp".toList, "pc-audit".toList, "pc-auth".toList, "pc-health".toList,
    "pc-s3minio".toList, "pc-snapbi".toList]

def extension (name : Text) : Option Text :=
  match rsplitOnce '.' name with
  | some (_ :: _, ext) => some ext
  | _ => none

def joinPath (path : List Text) : Text := ['/'].intercalate path

def display (ws : Workspace) (path : List Text) : Text := ws.root ++ '/' :: joinPath path

def relPath (path : List Text) : Text :=
  (joinPath path).map fun c => if c = '\\' then '/' else c

section
variable (ws : Workspace)

mutual

def collectRs (dir : List Text) : Tree → Except Text (List File)
  | .file name contents =>
    .ok (if extension name = some "rs".toList then [⟨dir ++ [name], contents⟩] else [])
  | .dir name none entries => collectEntries (dir ++ [name]) entries
  | .dir name (some e) _ =>
    .error ("reading ".toList ++ display ws (dir ++ [name]) ++ ": ".toList ++ e)

def collectEntries (dir : List Text) : List Tree → Except Text (List File)
  | [] => .ok []
  | tree :: entries => do
    let files ← collectRs dir tree
    let rest ← collectEntries dir entries
    return files ++ rest

end

def crateFiles (krate : Text) : Except Text (List File) :=
  match ws.src krate with
  | some (.dir name failure entries) => do
    let files ← collectRs ws ["crates".toList, krate] (.dir name failure entries)
    return files.insertionSort fun f g => f.path ≤ g.path
  | _ => .error ("crate `".toList ++ krate ++ "` is in SCOPE but ".toList ++
      display ws ["crates".toList, krate, "src".toList] ++ " does not exist".toList)

variable (unicode : Char → Bool)

def scanFile (file : File) : Except Text (List Export) :=
  match file.contents with
  | .ok source => .ok (scan unicode source (relPath file.path))
  | .error e => .error ("reading ".toList ++ display ws file.path ++ ": ".toList ++ e)

def scanCrate (krate : Text) : Except Text (List Export) := do
  let files ← crateFiles ws krate
  let reports ← files.mapM (scanFile ws unicode)
  return reports.flatten

def collect : Except Text (List Export) := do
  let reports ← scope.mapM (scanCrate ws unicode)
  return reports.flatten.insertionSort fun e f => e.key ≤ f.key

end

/-! ## The baseline -/

def baselineHeader : List Text :=
  ["# Exported items still missing a `mirrors:` / `no-go-equivalent:` annotation.".toList,
    "#".toList,
    "# Accepted debt, not approval. Shrink it; do not grow it. Regenerate with".toList,
    "# `cargo xtask lint-mirrors --update-baseline` ONLY when paying debt down or".toList,
    "# bringing a new crate into scope — never to silence a new export.".toList]

def keys (found : List Export) : List Text := found.map Export.key

def baselineText (found : List Export) : Text :=
  (baselineHeader ++ keys found).flatMap (· ++ ['\n'])

def sortedSet (ls : List Text) : List Text := ls.dedup.insertionSort (· ≤ ·)

def readBaseline (baseline : Option Text) : List Text :=
  sortedSet (((linesOf (baseline.getD [])).map trimChars).filter fun l =>
    !l.isEmpty && !startsWith l ['#'])

/-! ## The command -/

inductive ExitCode
  | success
  | failure
deriving DecidableEq, Repr

structure Outcome where
  code : ExitCode
  stdout : List Text
  stderr : List Text
  written : Option Text
deriving DecidableEq, Repr

def number (n : ℕ) : Text := (toString n).toList

def indented (key : Text) : Text := ' ' :: ' ' :: key

def newHeading (count : ℕ) : Text :=
  "\nlint-mirrors: ".toList ++ number count ++ (" exported item(s) have no `mirrors:` or " ++
    "`no-go-equivalent:` annotation.\n\nThis workspace is a port. Record what the Go original " ++
    "is, or say there isn't one:\n\n    /// mirrors: `pkg.GoSymbol`\n\n    /// mirrors: " ++
    "`pkg.GoOne` + `pkg.GoTwo`      (when it really is more than one)\n\n    " ++
    "/// no-go-equivalent: <why>\n").toList

def staleHeading (count : ℕ) : Text :=
  "\nlint-mirrors: ".toList ++ number count ++ (" baseline entr(y/ies) no longer match " ++
    "any export.\nRenamed, deleted, or annotated? Either way run `cargo xtask lint-mirrors " ++
    "--update-baseline` so the ratchet cannot rot:\n").toList

def reportOf (heading : ℕ → Text) (listed : List Text) : List Text :=
  if listed.isEmpty then [] else heading listed.length :: listed.map indented

def newKeys (found : List Export) (baseline : List Text) : List Text :=
  (sortedSet (keys found)).filter (· ∉ baseline)

def staleKeys (found : List Export) (baseline : List Text) : List Text :=
  baseline.filter (· ∉ sortedSet (keys found))

def compare (found : List Export) (baseline : List Text) : Outcome :=
  let new := newKeys found baseline
  let stale := staleKeys found baseline
  if new.isEmpty && stale.isEmpty then
    ⟨.success, ["lint-mirrors: ok — ".toList ++ number found.length ++
      " known unannotated item(s), none new".toList], [], none⟩
  else ⟨.failure, [], reportOf newHeading new ++ reportOf staleHeading stale, none⟩

def updateFlag : Text := "--update-baseline".toList

def allFlag : Text := "--all".toList

/-- `baseline` is what the file has, `refused` why it cannot be written. -/
def run (unicode : Char → Bool) (ws : Workspace) (baseline refused : Option Text)
    (args : List Text) : Outcome :=
  match collect ws unicode with
  | .error err => ⟨.failure, [], ["lint-mirrors: ".toList ++ err], none⟩
  | .ok found =>
    if args.contains updateFlag then
      match refused with
      | some err => ⟨.failure, [], ["lint-mirrors: writing baseline: ".toList ++ err], none⟩
      | none =>
        ⟨.success, ["lint-mirrors: baseline updated with ".toList ++ number found.length ++
          " entries".toList], [], some (baselineText found)⟩
    else if args.contains allFlag then
      ⟨.success, keys found ++ ['\n' :: number found.length ++
        " unannotated exported item(s) in scope".toList], [], none⟩
    else compare found (readBaseline baseline)

/-! ## How a key reads -/

section
variable {unicode : Char → Bool} {ws : Workspace} {found : List Export} {e : Export}

def Named (unicode : Char → Bool) (relPath : Text) (e : Export) : Prop :=
  ∃ i item, e = .new relPath i item ∧ item ≠ [] ∧ ∀ c ∈ item, nameChar unicode c = true

theorem named_of_mem_found {path line : Text} {lines : List Text} {depthBefore : ℤ} {i : ℕ}
    (h : e ∈ LintMirrors.found unicode path lines depthBefore line i) : Named unicode path e := by
  unfold LintMirrors.found at h
  cases hitem : exportedItem unicode line with
  | none => simp [hitem] at h
  | some item =>
    obtain ⟨qualifier, -, keyword, -, rest, -, hne, hname, -⟩ :=
      (exportedItem_eq_some unicode).mp hitem
    simp only [hitem] at h
    split_ifs at h
    · cases h
    · cases h
    · obtain rfl := List.mem_singleton.mp h
      exact ⟨i, item, rfl, hne, hname⟩

theorem named_of_mem_foldl {path : Text} {lines : List Text} {numbered : List (Text × ℕ)}
    {s : Scan} (hs : ∀ e ∈ s.out, Named unicode path e) :
    ∀ e ∈ (numbered.foldl (Scan.next unicode path lines) s).out, Named unicode path e := by
  induction numbered generalizing s with
  | nil => exact hs
  | cons line numbered ih =>
    refine ih fun e he => ?_
    unfold Scan.next at he
    dsimp only at he
    split at he
    · exact hs e he
    · rcases List.mem_append.mp he with he | he
      · exact hs e he
      · exact named_of_mem_found he

theorem named_of_mem_scan {source path : Text} (h : e ∈ scan unicode source path) :
    Named unicode path e :=
  named_of_mem_foldl (by simp [Scan.start]) e h

mutual

theorem collectRs_path {dir : List Text} {files : List File} : (tree : Tree) →
    collectRs ws dir tree = .ok files → ∀ f ∈ files, dir <+: f.path
  | .file name contents, h, f, hf => by
    obtain rfl := Except.ok.inj h
    split_ifs at hf
    · obtain rfl := List.mem_singleton.mp hf
      exact List.prefix_append _ _
    · cases hf
  | .dir name none entries, h, f, hf =>
    (List.prefix_append dir [name]).trans (collectEntries_path entries h f hf)

theorem collectEntries_path {dir : List Text} {files : List File} : (entries : List Tree) →
    collectEntries ws dir entries = .ok files → ∀ f ∈ files, dir <+: f.path
  | [], h, f, hf => by
    obtain rfl := Except.ok.inj h
    cases hf
  | tree :: entries, h, f, hf => by
    obtain ⟨first, hfirst, h⟩ := Results.bind_eq_ok.mp h
    obtain ⟨rest, hrest, h⟩ := Results.bind_eq_ok.mp h
    obtain rfl := Except.ok.inj h
    rcases List.mem_append.mp hf with hf | hf
    · exact collectRs_path tree hfirst f hf
    · exact collectEntries_path entries hrest f hf

end

theorem crateFiles_path {krate : Text} {files : List File} (h : crateFiles ws krate = .ok files)
    {f : File} (hf : f ∈ files) : ∃ rest, f.path = "crates".toList :: rest := by
  unfold crateFiles at h
  split at h
  · obtain ⟨listed, hlisted, h⟩ := Results.bind_eq_ok.mp h
    obtain rfl := Except.ok.inj h
    obtain ⟨rest, hrest⟩ := collectRs_path _ hlisted f ((List.perm_insertionSort _ _).mem_iff.mp hf)
    exact ⟨krate :: rest, hrest.symm⟩
  · cases h

theorem named_of_mem_collect (h : collect ws unicode = .ok found) (he : e ∈ found) :
    ∃ rest, Named unicode (relPath ("crates".toList :: rest)) e := by
  obtain ⟨reports, hreports, h⟩ := Results.bind_eq_ok.mp h
  obtain rfl := Except.ok.inj h
  obtain ⟨report, hreport, he⟩ := List.mem_flatten.mp ((List.perm_insertionSort _ _).mem_iff.mp he)
  obtain ⟨krate, -, hcrate⟩ := Results.mem_of_mapM_eq_ok hreports hreport
  obtain ⟨files, hfiles, hcrate⟩ := Results.bind_eq_ok.mp hcrate
  obtain ⟨scans, hscans, hcrate⟩ := Results.bind_eq_ok.mp hcrate
  obtain rfl := Except.ok.inj hcrate
  obtain ⟨exports, hexports, he⟩ := List.mem_flatten.mp he
  obtain ⟨file, hfile, hscan⟩ := Results.mem_of_mapM_eq_ok hscans hexports
  obtain ⟨rest, hpath⟩ := crateFiles_path hfiles hfile
  unfold scanFile at hscan
  split at hscan
  · obtain rfl := Except.ok.inj hscan
    exact ⟨rest, hpath ▸ named_of_mem_scan he⟩
  · cases hscan

theorem head_relPath (rest : List Text) :
    (relPath ("crates".toList :: rest)).head? = some 'c' := by
  cases rest with
  | nil => rfl
  | cons name rest => rfl

/-- A key begins with the path and ends with the item, so that nothing is trimmed of it and it
is no comment. -/
structure Storable (key : Text) : Prop where
  head : key.head? = some 'c'
  last : ∃ c, key.getLast? = some c ∧ isWhitespace c = false

theorem isWhitespace_of_nameChar (hunicode : ∀ c, unicode c = true → isWhitespace c = false)
    {c : Char} (h : nameChar unicode c = true) : isWhitespace c = false := by
  simp only [nameChar, isAlphanumeric, Bool.or_eq_true, Bool.and_eq_true, beq_iff_eq] at h
  rcases h with (halnum | ⟨-, hc⟩) | rfl
  · have hrange : 48 ≤ c.toNat ∧ c.toNat ≤ 122 := by
      simp only [Char.isAlphanum, Char.isAlpha, Char.isUpper, Char.isLower, Char.isDigit,
        Bool.or_eq_true, Bool.and_eq_true, decide_eq_true_eq] at halnum
      rcases halnum with (⟨hlo, hhi⟩ | ⟨hlo, hhi⟩) | ⟨hlo, hhi⟩
      · exact ⟨le_trans (by decide) (show 65 ≤ c.toNat from hlo),
          le_trans (show c.toNat ≤ 90 from hhi) (by decide)⟩
      · exact ⟨le_trans (by decide) (show 97 ≤ c.toNat from hlo), hhi⟩
      · exact ⟨hlo, le_trans (show c.toNat ≤ 57 from hhi) (by decide)⟩
    by_contra hspace
    simp only [Bool.not_eq_false, isWhitespace, Bool.or_eq_true, Bool.and_eq_true,
      decide_eq_true_eq, beq_iff_eq] at hspace
    omega
  · exact hunicode c hc
  · rfl

theorem storable_of_mem (hunicode : ∀ c, unicode c = true → isWhitespace c = false)
    (h : collect ws unicode = .ok found) {key : Text} (hkey : key ∈ keys found) :
    Storable key := by
  obtain ⟨e, he, rfl⟩ := List.mem_map.mp hkey
  obtain ⟨rest, i, item, rfl, hne, hname⟩ := named_of_mem_collect h he
  constructor
  · have hpath : relPath ("crates".toList :: rest) ≠ [] := by
      intro hnil
      have hhead := head_relPath rest
      rw [hnil] at hhead
      cases hhead
    rw [Export.new, List.append_assoc, List.head?_append_of_ne_nil _ hpath, head_relPath]
  · have hlast : nameChar unicode (item.getLast hne) = true := hname _ (List.getLast_mem hne)
    refine ⟨item.getLast hne, ?_, isWhitespace_of_nameChar hunicode hlast⟩
    rw [Export.new, List.getLast?_append_of_ne_nil _ (by simp), List.getLast?_cons,
      List.getLast?_eq_some_getLast hne, Option.getD_some]

/-! ## The baseline reads back -/

theorem linesOf_ended {ls : List Text} (h : ∀ l ∈ ls, '\n' ∉ l) :
    linesOf (ls.flatMap (· ++ ['\n'])) = ls.map stripReturn := by
  simp [linesOf, Splitting.splitOn_ended h]

theorem notMem_of_mem_linesOf {source l : Text} (h : l ∈ linesOf source) : '\n' ∉ l := by
  have hpieces : ∀ piece ∈ source.splitOn '\n', '\n' ∉ piece :=
    fun piece hpiece => Splitting.notMem_of_mem_splitOn hpiece
  have hended : ∀ l ∈ (source.splitOn '\n').dropLast.map stripReturn, '\n' ∉ l := by
    intro l hl hnewline
    obtain ⟨piece, hpiece, rfl⟩ := List.mem_map.mp hl
    refine hpieces piece (List.mem_of_mem_dropLast hpiece) ?_
    unfold stripReturn at hnewline
    split_ifs at hnewline
    · exact List.mem_of_mem_dropLast hnewline
    · exact hnewline
  unfold linesOf at h
  dsimp only at h
  split at h
  · exact hended l h
  · exact hended l h
  · rename_i last _ hlast
    rcases List.mem_append.mp h with h | h
    · exact hended l h
    · rw [List.mem_singleton.mp h]
      exact hpieces last (List.mem_of_getLast? hlast)

@[simp] theorem mem_sortedSet {ls : List Text} {l : Text} : l ∈ sortedSet ls ↔ l ∈ ls := by
  rw [sortedSet, (List.perm_insertionSort _ _).mem_iff, List.mem_dedup]

theorem notMem_of_mem_readBaseline {baseline : Option Text} {key : Text}
    (h : key ∈ readBaseline baseline) : '\n' ∉ key := by
  obtain ⟨hmem, -⟩ := List.mem_filter.mp (mem_sortedSet.mp h)
  obtain ⟨l, hl, rfl⟩ := List.mem_map.mp hmem
  exact fun hnewline => notMem_of_mem_linesOf hl (mem_of_mem_trimChars hnewline)

theorem stripReturn_of_storable {key : Text} (h : Storable key) : stripReturn key = key := by
  obtain ⟨c, hlast, hspace⟩ := h.last
  have hne : c ≠ '\r' := by
    rintro rfl
    cases hspace
  simp [stripReturn, hlast, hne]

theorem trimChars_of_storable {key : Text} (h : Storable key) : trimChars key = key := by
  obtain ⟨c, hlast, hspace⟩ := h.last
  refine trimChars_eq_self ?_ ?_
  · rw [h.head]
    rintro _ ⟨⟩
    rfl
  · rw [hlast]
    rintro _ ⟨⟩
    exact hspace

theorem kept_of_storable {key : Text} (h : Storable key) :
    (!key.isEmpty && !startsWith key ['#']) = true := by
  cases key with
  | nil => cases h.head
  | cons c key =>
    obtain rfl : c = 'c' := Option.some.inj h.head
    rfl

theorem readBaseline_baselineText (hstorable : ∀ key ∈ keys found, Storable key)
    (hline : ∀ key ∈ keys found, '\n' ∉ key) :
    readBaseline (some (baselineText found)) = sortedSet (keys found) := by
  have hlines : linesOf (baselineText found) =
      (baselineHeader ++ keys found).map stripReturn := by
    refine linesOf_ended fun l hl => ?_
    rcases List.mem_append.mp hl with hl | hl
    · have hheader : ∀ l ∈ baselineHeader, '\n' ∉ l := by decide
      exact hheader l hl
    · exact hline l hl
  have hkeys : ((keys found).map stripReturn).map trimChars = keys found := by
    rw [List.map_map]
    refine (List.map_congr_left fun key hkey => ?_).trans (List.map_id _)
    rw [Function.comp_apply, stripReturn_of_storable (hstorable key hkey),
      trimChars_of_storable (hstorable key hkey), id]
  have hheader : ((baselineHeader.map stripReturn).map trimChars).filter
      (fun l => !l.isEmpty && !startsWith l ['#']) = [] := by decide
  unfold readBaseline
  rw [Option.getD_some, hlines, List.map_append, List.map_append, List.filter_append, hheader,
    List.nil_append, hkeys, List.filter_eq_self.mpr fun key hkey =>
      kept_of_storable (hstorable key hkey)]

/-! ## The ratchet -/

@[simp] theorem mem_newKeys {baseline : List Text} {key : Text} :
    key ∈ newKeys found baseline ↔ key ∈ keys found ∧ key ∉ baseline := by
  rw [newKeys, List.mem_filter, mem_sortedSet, decide_eq_true_iff]

@[simp] theorem mem_staleKeys {baseline : List Text} {key : Text} :
    key ∈ staleKeys found baseline ↔ key ∈ baseline ∧ key ∉ keys found := by
  rw [staleKeys, List.mem_filter, decide_eq_true_iff, mem_sortedSet]

theorem mem_reportOf {heading : ℕ → Text} (hheading : ∀ n, (heading n).head? = some '\n')
    {listed : List Text} {key : Text} : indented key ∈ reportOf heading listed ↔ key ∈ listed := by
  unfold reportOf
  split_ifs with hempty
  · simp [List.isEmpty_iff.mp hempty]
  · have hne : indented key ≠ heading listed.length := by
      intro heq
      have hhead := hheading listed.length
      rw [← heq] at hhead
      cases hhead
    rw [List.mem_cons, or_iff_right hne, List.mem_map_of_injective]
    rintro a b hab
    exact (List.cons.inj (List.cons.inj hab).2).2

theorem nothing_listed {baseline : List Text} :
    (newKeys found baseline = [] ∧ staleKeys found baseline = []) ↔
      ∀ key, key ∈ keys found ↔ key ∈ baseline := by
  simp only [List.eq_nil_iff_forall_not_mem, mem_newKeys, mem_staleKeys, not_and, not_not]
  exact ⟨fun h key => ⟨h.1 key, h.2 key⟩, fun h => ⟨fun key => (h key).mp, fun key => (h key).mpr⟩⟩

theorem compare_cases (found : List Export) (baseline : List Text) :
    (newKeys found baseline = [] ∧ staleKeys found baseline = [] ∧
        (compare found baseline).code = .success ∧ (compare found baseline).stderr = []) ∨
      (¬ (newKeys found baseline = [] ∧ staleKeys found baseline = []) ∧
        (compare found baseline).code = .failure ∧ (compare found baseline).stderr =
          reportOf newHeading (newKeys found baseline) ++
            reportOf staleHeading (staleKeys found baseline)) := by
  unfold compare
  dsimp only
  split_ifs with h
  · obtain ⟨hnew, hstale⟩ := (Bool.and_eq_true _ _).mp h
    exact Or.inl ⟨List.isEmpty_iff.mp hnew, List.isEmpty_iff.mp hstale, rfl, rfl⟩
  · refine Or.inr ⟨fun ⟨hnew, hstale⟩ => h ?_, rfl, rfl⟩
    rw [hnew, hstale]
    rfl

theorem compare_success {baseline : List Text} :
    (compare found baseline).code = .success ↔ ∀ key, key ∈ keys found ↔ key ∈ baseline := by
  rw [← nothing_listed]
  rcases compare_cases found baseline with ⟨hnew, hstale, hcode, -⟩ | ⟨hlisted, hcode, -⟩
  · exact iff_of_true hcode ⟨hnew, hstale⟩
  · rw [hcode]
    exact iff_of_false nofun hlisted

theorem mem_compare_stderr {baseline : List Text} {key : Text} :
    indented key ∈ (compare found baseline).stderr ↔ ¬ (key ∈ keys found ↔ key ∈ baseline) := by
  rcases compare_cases found baseline with ⟨hnew, hstale, -, hstderr⟩ | ⟨-, -, hstderr⟩
  · rw [hstderr]
    exact iff_of_false (List.not_mem_nil) (not_not.mpr (nothing_listed.mp ⟨hnew, hstale⟩ key))
  · rw [hstderr, List.mem_append, mem_reportOf fun _ => rfl, mem_reportOf fun _ => rfl, mem_newKeys,
      mem_staleKeys]
    tauto

theorem run_plain {baseline refused : Option Text} {args : List Text}
    (h : collect ws unicode = .ok found) (hupdate : updateFlag ∉ args)
    (hall : allFlag ∉ args) :
    run unicode ws baseline refused args = compare found (readBaseline baseline) := by
  simp [run, h, hupdate, hall]

end

/-- After an update a plain run passes on the same sources, unless a file name breaks a line;
on any sources it passes exactly if what lacks an annotation is the same, and reports what is
not; it never writes the baseline. -/
theorem ratchet_turns_one_way {unicode : Char → Bool}
    (hunicode : ∀ c, unicode c = true → isWhitespace c = false) {ws : Workspace}
    {found : List Export} (h : collect ws unicode = .ok found) {args : List Text}
    (hupdate : updateFlag ∈ args) (old : Option Text) :
    ∃ text, (run unicode ws old none args).code = .success ∧
      (run unicode ws old none args).written = some text ∧
      ((run unicode ws (some text) none []).code = .success ↔
        ∀ key ∈ keys found, '\n' ∉ key) ∧
      ((∀ key ∈ keys found, '\n' ∉ key) → ∀ (ws' : Workspace) found' args' refused,
        collect ws' unicode = .ok found' → updateFlag ∉ args' →
        allFlag ∉ args' →
          let plain := run unicode ws' (some text) refused args'
          plain.written = none ∧
            (plain.code = .success ↔ ∀ key, key ∈ keys found' ↔ key ∈ keys found) ∧
            ∀ key, indented key ∈ plain.stderr ↔ ¬ (key ∈ keys found' ↔ key ∈ keys found)) := by
  have hstorable : ∀ key ∈ keys found, Storable key := fun key => storable_of_mem hunicode h
  refine ⟨baselineText found, by simp [run, h, hupdate], by simp [run, h, hupdate], ?_, ?_⟩
  · rw [run_plain h (by simp) (by simp), compare_success]
    constructor
    · exact fun hsame key hkey => notMem_of_mem_readBaseline ((hsame key).mp hkey)
    · intro hline key
      rw [readBaseline_baselineText hstorable hline, mem_sortedSet]
  · intro hline ws' found' args' refused h' hupdate' hall'
    dsimp only
    rw [run_plain h' hupdate' hall', readBaseline_baselineText hstorable hline]
    refine ⟨?_, ?_, fun key => ?_⟩
    · unfold compare
      dsimp only
      split_ifs <;> rfl
    · rw [compare_success]
      simp only [mem_sortedSet]
    · rw [mem_compare_stderr, mem_sortedSet]

def unannotated : Workspace where
  root := "w".toList
  src krate := some (.dir "src".toList none
    (if krate = "pc-auth".toList then
      [.file "notes.md".toList (.ok []),
        .file "lib.rs".toList (.ok "pub fn header() {}\npub fn body() {}\n".toList)]
    else []))

theorem ratchet_turns_one_way_unannotated :
    ∃ found text, collect unannotated (fun _ => false) = .ok found ∧
      keys found = ["crates/pc-auth/src/lib.rs:1:header".toList,
        "crates/pc-auth/src/lib.rs:2:body".toList] ∧
      (run (fun _ => false) unannotated none none [updateFlag]).code = .success ∧
      (run (fun _ => false) unannotated none none [updateFlag]).written = some text ∧
      ((run (fun _ => false) unannotated (some text) none []).code = .success ↔
        ∀ key ∈ keys found, '\n' ∉ key) ∧
      ((∀ key ∈ keys found, '\n' ∉ key) → ∀ (ws' : Workspace) found' args' refused,
        collect ws' (fun _ => false) = .ok found' → updateFlag ∉ args' → allFlag ∉ args' →
          let plain := run (fun _ => false) ws' (some text) refused args'
          plain.written = none ∧
            (plain.code = .success ↔ ∀ key, key ∈ keys found' ↔ key ∈ keys found) ∧
            ∀ key, indented key ∈ plain.stderr ↔ ¬ (key ∈ keys found' ↔ key ∈ keys found)) := by
  have hkeys : (collect unannotated (fun _ => false)).map keys =
      .ok ["crates/pc-auth/src/lib.rs:1:header".toList,
        "crates/pc-auth/src/lib.rs:2:body".toList] := by decide +kernel
  obtain ⟨found, hfound, hkeys⟩ := Results.map_eq_ok.mp hkeys
  obtain ⟨text, hratchet⟩ :=
    ratchet_turns_one_way (by simp) hfound (List.mem_singleton_self updateFlag) none
  exact ⟨found, text, hfound, hkeys, hratchet⟩

end PaycloudHelper.LintMirrors
