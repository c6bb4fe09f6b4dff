import ColumnLineage.Command.FileTree
import ColumnLineage.Command.Run
import ColumnLineage.Proofs.MergedFindings
import ColumnLineage.Proofs.Steps

/-!
# The report on a directory

A host lists what lies below a directory in an order of its own. The report on the directory does
not show it: it depends on the scripts that can be read and on nothing else.

* `AnalysisOptions.analyzeDirectory_report`: all hosts with the same scripts give one report, which
  collects what is found in the scripts in the order of their paths.
-/

namespace ColumnLineage

/-! ## What lies in a directory -/

namespace FileTree

theorem entryBelow?_eq_some_iff {place path : Path} {node : FileNode} {e : Entry} :
    entryBelow? place none path node = some e ↔
      path = place ++ e.path ∧ e.path ≠ [] ∧ e.isDirectory = decide (node = .directory) := by
  unfold entryBelow?
  constructor
  · intro h
    obtain ⟨hbelow, he⟩ := Option.ite_none_right_eq_some.mp h
    obtain rfl := Option.some.inj he
    simp only [Bool.and_eq_true, Bool.not_eq_true', List.isPrefixOf_iff_prefix] at hbelow
    obtain ⟨⟨⟨rest, rfl⟩, hne⟩, -⟩ := hbelow
    rw [List.drop_left] at hne ⊢
    exact ⟨rfl, by simpa using hne, rfl⟩
  · obtain ⟨rest, isDirectory⟩ := e
    rintro ⟨rfl, hne, hkind⟩
    dsimp only at hne hkind
    simp [hne, hkind]

theorem mem_below {t : FileTree} {place : Path} {e : Entry} :
    e ∈ t.below place none ↔ e.path ≠ [] ∧ ∃ node,
      t.nodes.get? (place ++ e.path) = some node ∧ e.isDirectory = decide (node = .directory) := by
  unfold below
  rw [List.mem_filterMap]
  constructor
  · rintro ⟨⟨path, node⟩, hmem, he⟩
    obtain ⟨rfl, hne, hkind⟩ := entryBelow?_eq_some_iff.mp he
    exact ⟨hne, node, OrderedMap.get?_of_mem hmem, hkind⟩
  · rintro ⟨hne, node, hget, hkind⟩
    exact ⟨(place ++ e.path, node), OrderedMap.mem_of_get?_eq_some hget,
      entryBelow?_eq_some_iff.mpr ⟨rfl, hne, hkind⟩⟩

theorem pairwise_below (t : FileTree) (place : Path) :
    (t.below place none).Pairwise fun a b => a.path ≠ b.path := by
  unfold below
  rw [List.pairwise_filterMap]
  refine (List.pairwise_map.mp t.nodes.nodup).imp ?_
  rintro ⟨path, node⟩ ⟨path', node'⟩ hne a ha b hb hab
  obtain ⟨rfl, -⟩ := entryBelow?_eq_some_iff.mp ha
  obtain ⟨rfl, -⟩ := entryBelow?_eq_some_iff.mp hb
  exact hne (congrArg (place ++ ·) hab)

end FileTree

theorem Entry.isScript_iff {e : Entry} :
    e.isScript ↔ e.isDirectory = false ∧
      ∃ name, e.path.getLast? = some name ∧ ".sql".toList <:+ name.toList := by
  unfold isScript
  cases e.path.getLast? <;> simp

namespace MemoryHost

/-- A script lies in a directory: a file, at any depth, whose name ends in `.sql`. -/
def Lists (h : MemoryHost) (directory : String) (path : Path) : Prop :=
  ∃ place node name, h.tree.locate h.current directory = .ok place ∧
    h.tree.nodes.get? (place ++ path) = some node ∧ node ≠ .directory ∧
    path.getLast? = some name ∧ ".sql".toList <:+ name.toList

/-- What is read at a path in a directory. -/
def readBelow (h : MemoryHost) (directory : String) (path : Path) : Except FileFault String :=
  h.tree.read h.current (Path.join directory ("/".intercalate path))

/-- A script lies in a directory and can be read. -/
def HasScript (h : MemoryHost) (directory : String) (s : ScriptFile) : Prop :=
  h.Lists directory s.path ∧ h.readBelow directory s.path = .ok s.text

/-- The paths of the scripts in a directory, in the order of the host. -/
def paths (h : MemoryHost) (directory : String) : List Path :=
  match h.tree.locate h.current directory with
  | .ok place => scriptPaths (h.tree.below place none)
  | .error _ => []

/-- The scripts in a directory that can be read, in the order of the host. -/
def scripts (h : MemoryHost) (directory : String) : List ScriptFile :=
  (h.paths directory).filterMap fun path => (h.readBelow directory path).toOption.map (⟨path, ·⟩)

variable {h : MemoryHost} {directory : String}

theorem mem_paths {path : Path} : path ∈ h.paths directory ↔ h.Lists directory path := by
  unfold paths Lists
  cases hplace : h.tree.locate h.current directory with
  | error fault => simp
  | ok place =>
    change path ∈ ((h.tree.below place none).filter Entry.isScript).map Entry.path ↔ _
    constructor
    · intro hpath
      obtain ⟨e, he, rfl⟩ := List.mem_map.mp hpath
      obtain ⟨hbelow, hscript⟩ := List.mem_filter.mp he
      obtain ⟨-, node, hget, hkind⟩ := FileTree.mem_below.mp hbelow
      obtain ⟨hfile, name, hname, hends⟩ := Entry.isScript_iff.mp hscript
      have hnode := of_decide_eq_false (hkind.symm.trans hfile)
      exact ⟨place, node, name, rfl, hget, hnode, hname, hends⟩
    · rintro ⟨_, node, name, hp, hget, hkind, hname, hends⟩
      cases hp
      have hne : path ≠ [] := by
        rintro rfl
        cases hname
      refine List.mem_map.mpr ⟨⟨path, false⟩, List.mem_filter.mpr ⟨?_, ?_⟩, rfl⟩
      · exact FileTree.mem_below.mpr ⟨hne, node, hget, (decide_eq_false hkind).symm⟩
      · exact Entry.isScript_iff.mpr ⟨rfl, name, hname, hends⟩

theorem nodup_paths (h : MemoryHost) (directory : String) : (h.paths directory).Nodup := by
  unfold paths
  cases h.tree.locate h.current directory with
  | error fault => exact List.nodup_nil
  | ok place =>
    exact List.pairwise_map.mpr ((h.tree.pairwise_below place).filter _)

/-- The scripts that are analysed are those that lie in the directory and can be read. -/
theorem mem_scripts {s : ScriptFile} : s ∈ h.scripts directory ↔ h.HasScript directory s := by
  unfold scripts HasScript
  rw [List.mem_filterMap]
  constructor
  · rintro ⟨path, hpath, hs⟩
    obtain ⟨text, htext, rfl⟩ := Option.map_eq_some_iff.mp hs
    exact ⟨mem_paths.mp hpath, eq_ok_of_toOption htext⟩
  · rintro ⟨hpath, htext⟩
    exact ⟨s.path, mem_paths.mpr hpath, by rw [htext]; rfl⟩

theorem nodup_scripts (h : MemoryHost) (directory : String) : (h.scripts directory).Nodup := by
  unfold scripts
  refine List.pairwise_filterMap.mpr ((h.nodup_paths directory).imp fun hne a ha b hb hab => hne ?_)
  obtain ⟨_, -, rfl⟩ := Option.map_eq_some_iff.mp ha
  obtain ⟨_, -, rfl⟩ := Option.map_eq_some_iff.mp hb
  exact congrArg ScriptFile.path hab

end MemoryHost

/-! ## Runs -/

section runs

variable {h : MemoryHost} {directory : String}

theorem run_bind_of_run {σ α β : Type} {m : StateM σ α} {next : α → StateM σ β} {s t : σ} {a : α}
    (hm : m.run s = (a, t)) : (m >>= next).run s = (next a).run t := by
  rw [StateT.run_bind, hm]
  rfl

theorem run_bind_of_ok {σ ε α β : Type} {m : ExceptT ε (StateM σ) α}
    {next : α → ExceptT ε (StateM σ) β} {s t : σ} {a : α} (hm : m.run.run s = (.ok a, t)) :
    (m >>= next).run.run s = (next a).run.run t := by
  rw [ExceptT.run_bind, run_bind_of_run hm]

theorem run_lift {σ ε α : Type} {m : StateM σ α} {s t : σ} {a : α} (hm : m.run s = (a, t)) :
    (liftM m : ExceptT ε (StateM σ) α).run.run s = (.ok a, t) := by
  change (Except.ok (m.run s).1, (m.run s).2) = _
  rw [hm]

theorem readScript_run (path : Path) :
    (readScript directory path : StateM MemoryHost (Option ScriptFile)).run h =
      ((h.readBelow directory path).toOption.map (⟨path, ·⟩), h) := by
  have hread : (Host.read (Path.join directory ("/".intercalate path)) :
      StateM MemoryHost (Except FileFault String)).run h = (h.readBelow directory path, h) := rfl
  unfold readScript
  rw [run_bind_of_run hread]
  cases h.readBelow directory path <;> rfl

/-- Reading changes nothing, and what cannot be read is left out. -/
theorem readScripts_run (paths : List Path) :
    (readScripts directory paths : StateM MemoryHost (List ScriptFile)).run h =
      (paths.filterMap fun path => (h.readBelow directory path).toOption.map (⟨path, ·⟩), h) := by
  have hmap : (paths.mapM (readScript directory) : StateM MemoryHost _).run h =
      (paths.map fun path => (h.readBelow directory path).toOption.map (⟨path, ·⟩), h) := by
    induction paths with
    | nil => rfl
    | cons path rest ih =>
      rw [List.mapM_cons, run_bind_of_run (readScript_run path), run_bind_of_run ih]
      rfl
  unfold readScripts
  rw [run_bind_of_run hmap]
  change ((paths.map _).filterMap id, h) = _
  rw [List.filterMap_map]
  rfl

theorem below_run (h : MemoryHost) (directory : String) : ∃ entries,
    (Host.below directory none : StateM MemoryHost (List Entry)).run h = (entries, h) ∧
      scriptPaths entries = h.paths directory := by
  unfold MemoryHost.paths
  cases hplace : h.tree.locate h.current directory with
  | ok place =>
    refine ⟨h.tree.below place none, ?_, rfl⟩
    simp only [Host.below, StateT.run_bind, StateT.run_get, pure_bind, hplace]
    rfl
  | error fault =>
    refine ⟨[], ?_, rfl⟩
    simp only [Host.below, StateT.run_bind, StateT.run_get, pure_bind, hplace]
    rfl

theorem analyzeDirectory_run {schema : Option String} {o : AnalysisOptions} {catalog : Catalog}
    (hdirectory : h.tree.lookup h.current directory = .ok .directory)
    (hpaths : h.paths directory ≠ [])
    (hcatalog : (catalogFor schema o.dialect (h.scripts directory) :
      ExceptT Failure (StateM MemoryHost) Catalog).run.run h = (.ok catalog, h)) :
    (analyzeDirectory directory schema o :
      ExceptT Failure (StateM MemoryHost) (Option DirectoryAnalysis)).run.run h =
      (.ok (some ⟨catalog, h.time, o.analyzeFiles catalog (h.scripts directory)⟩), h) := by
  have hisDirectory : (Host.isDirectory directory : StateM MemoryHost Bool).run h = (true, h) := by
    change (decide ((h.tree.lookup h.current directory).toOption = some .directory), h) = _
    rw [hdirectory]
    rfl
  obtain ⟨entries, hbelow, hentries⟩ := below_run h directory
  have hnow : (Host.now : StateM MemoryHost Timestamp).run h = (h.time, h) := rfl
  have hread : (readScripts directory (scriptPaths entries) : StateM MemoryHost _).run h =
      (h.scripts directory, h) := by
    rw [hentries]
    exact readScripts_run (h.paths directory)
  have hne : ¬ (scriptPaths entries).isEmpty := by simpa [hentries] using hpaths
  unfold analyzeDirectory
  rw [run_bind_of_ok (run_lift hisDirectory), if_pos rfl, run_bind_of_ok (run_lift hbelow),
    if_neg hne, run_bind_of_ok (run_lift hread), run_bind_of_ok hcatalog,
    run_bind_of_ok (run_lift hnow)]
  rfl

theorem catalogFor_perm {m : Type → Type} [Monad m] [Host m] {scripts files : List ScriptFile}
    (hp : scripts.Perm files) (schema : Option String) (dialect : Dialect) :
    (catalogFor schema dialect scripts : ExceptT Failure m Catalog) =
      catalogFor schema dialect files := by
  have hdiscover : discoverCatalog dialect scripts = discoverCatalog dialect files := by
    unfold discoverCatalog
    rw [hp.all_eq]
  cases schema with
  | some path => rfl
  | none =>
    unfold catalogFor
    rw [hdiscover]

end runs

/-! ## The report -/

/-- For scripts with different paths, options and a catalog there are findings that every host with
these scripts in a directory reports, in whatever order it lists them. They collect what is found in
the scripts, in the order of the paths by their components. No table both is successful and has
messages, and every table that has lineage or messages is one or the other. -/
theorem AnalysisOptions.analyzeDirectory_report (o : AnalysisOptions) (catalog : Catalog)
    {files : List ScriptFile} (ho : files.Pairwise fun a b => a.path < b.path) :
    ∃ f : Findings,
      (∀ (h : MemoryHost) (directory : String) (schema : Option String),
        h.tree.lookup h.current directory = .ok .directory →
        (∃ path, h.Lists directory path) →
        (∀ s, h.HasScript directory s ↔ s ∈ files) →
        (catalogFor schema o.dialect files :
          ExceptT Failure (StateM MemoryHost) Catalog).run.run h = (.ok catalog, h) →
        (analyzeDirectory directory schema o :
          ExceptT Failure (StateM MemoryHost) (Option DirectoryAnalysis)).run.run h =
          (.ok (some ⟨catalog, h.time, f⟩), h)) ∧
      f.Collects (fun s => o.analyze catalog s.text) files ∧
      f.successful.Disjoint f.errored ∧
      ∀ key, key ∈ f.successful ∨ key ∈ f.errored ↔
        key ∈ f.lineage.keys ∨ key ∈ f.errors.keys := by
  refine ⟨files.foldl (fun f s => f.mergeFile s.name (o.analyze catalog s.text)) {}, ?_, ?_, ?_, ?_⟩
  · intro h directory schema hdirectory hlists hfiles hcatalog
    have hnodup : files.Nodup := by
      refine ho.imp ?_
      rintro a _ hlt rfl
      exact ScriptFile.path_ne_of_lt hlt rfl
    have hp : (h.scripts directory).Perm files :=
      (List.perm_ext_iff_of_nodup (h.nodup_scripts directory) hnodup).mpr fun s =>
        MemoryHost.mem_scripts.trans (hfiles s)
    have hpaths : h.paths directory ≠ [] := by
      obtain ⟨path, hpath⟩ := hlists
      exact List.ne_nil_of_mem (MemoryHost.mem_paths.mpr hpath)
    rw [← catalogFor_perm hp] at hcatalog
    rw [analyzeDirectory_run hdirectory hpaths hcatalog, analyzeFiles, ScriptFile.inOrder_eq hp ho]
  · exact (Findings.collects_nil _).mergeFiles files
  · exact Findings.disjoint_successful_errored _
  · exact fun _ => Findings.mem_successful_or_errored

/-- A directory with two scripts and a file that cannot be read. Path by path, the script that is
listed last comes first. -/
def twoScripts : MemoryHost where
  tree := ⟨.ofList [
    (["d"], .directory),
    (["d", "a.sql"], .text "create table v as select t.b from t"),
    (["d", "b.sql"], .binary),
    (["d", "a"], .directory),
    (["d", "a", "z.sql"],
      .text ("create table v as select t.a from t; " ++
        "create table w as select a from (select t.b from t) d"))]⟩
  current := []
  time := ⟨2024, 1, 2, 3, 4, 5, by decide, by decide, by decide, by decide, by decide, by decide⟩

/-- The scripts in the order of their paths. -/
def twoScriptFiles : List ScriptFile :=
  [⟨["a", "z.sql"],
      "create table v as select t.a from t; " ++
        "create table w as select a from (select t.b from t) d"⟩,
    ⟨["a.sql"], "create table v as select t.b from t"⟩]

/-- The lineage of the table that both scripts make is that in the script whose path comes last,
and the message about the other table has the name of its file. -/
theorem AnalysisOptions.analyzeDirectory_report_twoScripts :
    ∃ f : Findings,
      (analyzeDirectory "d" none {} :
        ExceptT Failure (StateM MemoryHost) (Option DirectoryAnalysis)).run.run twoScripts =
        (.ok (some ⟨demonstrationCatalog, twoScripts.time, f⟩), twoScripts) ∧
      f.lineage.get? "my_gp_db.v" =
        some ⟨["my_gp_db.t"], .ofList [("b", ["my_gp_db.t.b"])]⟩ ∧
      f.messages "my_gp_db.w" =
        ["[z.sql] Could not analyze statement: Column 'a' could not be resolved"] := by
  have hhost : twoScripts.scripts "d" = twoScriptFiles.reverse ∧
      twoScripts.paths "d" = [["a.sql"], ["b.sql"], ["a", "z.sql"]] ∧
      (twoScripts.tree.lookup [] "d").toOption = some .directory ∧
      discoverCatalog .greenplum twoScriptFiles = demonstrationCatalog ∧
      (twoScriptFiles.reverse.findSome? fun s =>
        (analyze {} demonstrationCatalog s.text).lineage.get? "my_gp_db.v") =
        some ⟨["my_gp_db.t"], .ofList [("b", ["my_gp_db.t.b"])]⟩ ∧
      (twoScriptFiles.flatMap fun s =>
        ((analyze {} demonstrationCatalog s.text).messages "my_gp_db.w").map
          (Findings.inFile s.name)) =
        ["[z.sql] Could not analyze statement: Column 'a' could not be resolved"] := by
    decide +kernel
  obtain ⟨hscripts, hpaths, hdirectory, hcatalog, hlineage, hmessages⟩ := hhost
  have horder : twoScriptFiles.Pairwise fun a b => a.path < b.path := by decide
  obtain ⟨f, hrun, hcollects, -, -⟩ :=
    analyzeDirectory_report {} demonstrationCatalog horder
  refine ⟨f, hrun twoScripts "d" none ?_ ?_ ?_ ?_, ?_, ?_⟩
  · exact eq_ok_of_toOption hdirectory
  · exact ⟨["a.sql"], MemoryHost.mem_paths.mp (hpaths ▸ List.mem_cons_self)⟩
  · intro s
    rw [← MemoryHost.mem_scripts, hscripts, List.mem_reverse]
  · exact congrArg (fun catalog => (Except.ok catalog, twoScripts)) hcatalog
  · exact (hcollects.lineage _).trans hlineage
  · exact (hcollects.messages _).trans hmessages

end ColumnLineage
