import RegisterCatalog.Proofs.PathNames
import RegisterCatalog.Proofs.PrimaryNames
import RegisterCatalog.Proofs.ReadAnswers
import RegisterCatalog.Proofs.SynonymNames
import RegisterCatalog.Proofs.WriteOrder

/-! Dependency manifests are the same whether they are asked for by themselves or beside a table. Both requests ask for
the same headers, and answers about the files do not depend on what they are asked for. The table of the one is
named by its destination; that of the other is named after the device and found beside the manifest. -/

namespace RegisterCatalog

namespace Artifact

def fileName : Artifact → String
  | identities level => IdentityHeader.fileName level
  | bindings => Bindings.fileName
  | table device => Device.tableFileStart ++ device ++ ".c"
  | dependencies device => Device.tableFileStart ++ device ++ ".d"

theorem deviceIn?_eq_some {name ending device : String} (found : deviceIn? name ending = some device) :
    name = Device.tableFileStart ++ device ++ ending := by
  obtain ⟨cut, _⟩ := Option.filter_eq_some_iff.mp found
  obtain ⟨rest, front, back⟩ := Option.bind_eq_some_iff.mp cut
  rw [Text.dropStart?_eq_some.mp front, Text.dropEnd?_eq_some back, String.append_assoc]

theorem ofFileName?_eq_some {name : String} {artifact : Artifact} (named : ofFileName? name = some artifact) :
    name = artifact.fileName := by
  unfold ofFileName? at named
  split at named
  next level found =>
    cases named
    have same : IdentityHeader.fileName level = name := by simpa using List.find?_some found
    exact same.symm
  next =>
    split at named
    next same =>
      cases named
      exact same
    next =>
      split at named
      next found =>
        cases named
        exact deviceIn?_eq_some found
      next found =>
        cases named
        exact deviceIn?_eq_some found
      next => cases named

/-- The files of the kinds have different endings. -/
def lastLetter : Artifact → Char
  | identities _ => 'h'
  | bindings => 'y'
  | table _ => 'c'
  | dependencies _ => 'd'

theorem getLast?_fileName (artifact : Artifact) : artifact.fileName.toList.getLast? = some artifact.lastLetter := by
  cases artifact with
  | identities level => cases level <;> decide
  | bindings => decide
  | table device | dependencies device => simp [fileName, lastLetter]

theorem ofPath_eq_ok {path name : String} {artifact : Artifact} (last : Path.fileName? path = some name)
    (known : ofPath path = .ok artifact) : name = artifact.fileName := by
  rw [ofPath, last] at known
  dsimp only at known
  split at known
  next found =>
    cases known
    exact ofFileName?_eq_some found
  next => cases known

theorem lastLetter_of_append {name ending : String} {artifact : Artifact} {letter : Char}
    (named : name ++ ending = artifact.fileName) (last : ending.toList.getLast? = some letter) :
    artifact.lastLetter = letter := by
  have same := artifact.getLast?_fileName
  rw [← named, String.toList_append, List.getLast?_append, last, Option.some_or] at same
  exact (Option.some.inj same).symm

theorem eq_dependencies {name : String} {artifact : Artifact} (named : name ++ ".d" = artifact.fileName) :
    ∃ device, artifact = .dependencies device ∧ name = Device.tableFileStart ++ device := by
  have letter := lastLetter_of_append named rfl
  cases artifact with
  | dependencies device => exact ⟨device, rfl, (String.append_left_inj _).mp named⟩
  | identities level | bindings | table device => cases letter

theorem eq_table {name : String} {artifact : Artifact} (named : name ++ ".c" = artifact.fileName) :
    ∃ device, artifact = .table device ∧ name = Device.tableFileStart ++ device := by
  have letter := lastLetter_of_append named rfl
  cases artifact with
  | table device => exact ⟨device, rfl, (String.append_left_inj _).mp named⟩
  | identities level | bindings | dependencies device => cases letter

/-- Two files with the names of a table and its manifest are of one device, and the table is found beside the manifest.
The device may have slashes in its name, and then both files are of the device after the last slash. -/
theorem table_beside_dependencies {directory device : String} {manifest table : Artifact}
    (plain : Path.Plain (Path.join directory (Artifact.table device).fileName))
    (knownManifest : ofPath (Path.join directory (Artifact.dependencies device).fileName) = .ok manifest)
    (knownTable : ofPath (Path.join directory (Artifact.table device).fileName) = .ok table) :
    ∃ called, manifest = .dependencies called ∧ table = .table called ∧
      Path.withFileName (Path.join directory (Artifact.dependencies device).fileName) (Artifact.table called).fileName =
        Path.join directory (Artifact.table device).fileName := by
  have nonempty : Device.tableFileStart ++ device ≠ "" := by simp [Device.tableFileStart]
  simp only [fileName, Path.join_append directory _ nonempty] at plain knownManifest knownTable ⊢
  obtain ⟨name, endings⟩ := plain.exists_name
  obtain ⟨manifestName, renamed⟩ := endings ".d" (by simp [Path.IsName])
  obtain ⟨tableName, _⟩ := endings ".c" (by simp [Path.IsName])
  obtain ⟨called, rfl, rfl⟩ := eq_dependencies (ofPath_eq_ok manifestName knownManifest)
  obtain ⟨other, rfl, same⟩ := eq_table (ofPath_eq_ok tableName knownTable)
  obtain rfl := (String.append_right_inj _).mp same
  exact ⟨called, rfl, rfl, renamed ".c" (by simp [Path.IsName])⟩

end Artifact

open Job

namespace Request

variable {request : Request} {tree : FileTree} {outputs : List Output} {device : String}

def headersOf (request : Request) (device : String) : Job LoadedHeaders := do
  let settings ← request.readSettings
  let listed ← request.findDevice device
  LoadedHeaders.load settings request.driversRoot listed.device

theorem answer_headersOf {settings : Settings} {listed : ListedDevice} {headers : LoadedHeaders}
    (configured : request.readSettings.answer tree = .ok settings)
    (found : (request.findDevice device).answer tree = .ok listed)
    (loaded : (LoadedHeaders.load settings request.driversRoot listed.device).answer tree = .ok headers) :
    (request.headersOf device).answer tree = .ok headers := by
  unfold headersOf
  rw [request.reads_readSettings.answer_bind, configured]
  change (request.findDevice device >>= _).answer tree = _
  rw [(request.reads_findDevice device).answer_bind, found]
  exact loaded

/-- What remains of a request when the catalog has been read. -/
def outputsFrom (request : Request) (artifact : Artifact) (settings : Settings) (layout : Layout) (catalog : Catalog) :
    Job (List Output) :=
  let alone (text : String) : List Output := [⟨request.destination, text⟩]
  match artifact with
  | .identities level => return alone (IdentityHeader.text ⟨catalog, level, layout⟩)
  | .bindings => return alone (← request.bindingsText settings catalog)
  | .table device => request.tableOutputs settings catalog device
  | .dependencies device => return alone (← request.dependenciesText settings device)

theorem answer_outputs (done : request.outputs.answer tree = .ok outputs) :
    ∃ artifact settings layout catalog, Artifact.ofPath request.destination = .ok artifact ∧
      request.readSettings.answer tree = .ok settings ∧
      (request.outputsFrom artifact settings layout catalog).answer tree = .ok outputs := by
  obtain ⟨present, _, _, done⟩ :=
    (reads_send (show (FileRequest.isDirectory request.driversRoot).OnlyReads from trivial)).answer_bind_eq_ok done
  cases present with
  | false => cases done
  | true =>
    obtain ⟨artifact, _, known, done⟩ := request.reads_artifact.answer_bind_eq_ok done
    obtain ⟨settings, configured, _, done⟩ := request.reads_readSettings.answer_bind_eq_ok done
    obtain ⟨layout, _, _, done⟩ := (reads_layout settings).answer_bind_eq_ok done
    obtain ⟨catalog, _, _, done⟩ := (request.reads_readCatalog settings layout).answer_bind_eq_ok done
    exact ⟨artifact, settings, layout, catalog, known, configured, done⟩

theorem answer_outputs_of_dependencies (known : Artifact.ofPath request.destination = .ok (.dependencies device))
    (done : request.outputs.answer tree = .ok outputs) :
    ∃ headers, (request.headersOf device).answer tree = .ok headers ∧
      outputs = [⟨request.destination, (request.dependencies
        (Path.withFileName request.destination (Artifact.table device).fileName) headers).text⟩] := by
  obtain ⟨artifact, settings, layout, catalog, named, configured, done⟩ := answer_outputs done
  obtain rfl := Except.ok.inj (known.symm.trans named)
  obtain ⟨text, made, _, rest⟩ := (request.reads_dependenciesText settings device).answer_bind_eq_ok done
  obtain ⟨listed, found, called, made⟩ := (request.reads_findDevice device).answer_bind_eq_ok made
  obtain ⟨headers, loaded, _, made⟩ := (LoadedHeaders.reads_loadAll _ _ _ _ _).answer_bind_eq_ok made
  refine ⟨headers, answer_headersOf configured found loaded, ?_⟩
  rw [answer_pure] at rest
  obtain rfl := Except.ok.inj rest
  obtain rfl := Except.ok.inj made
  rw [Device.tableFile, called, Artifact.fileName]

theorem answer_outputs_of_table (known : Artifact.ofPath request.destination = .ok (.table device))
    (done : request.outputs.answer tree = .ok outputs) :
    ∃ headers text, (request.headersOf device).answer tree = .ok headers ∧
      outputs = ⟨request.destination, text⟩ :: request.dependencies?.toList.map fun path =>
        ⟨path, (request.dependencies request.destination headers).text⟩ := by
  obtain ⟨artifact, settings, layout, catalog, named, configured, done⟩ := answer_outputs done
  obtain rfl := Except.ok.inj (known.symm.trans named)
  obtain ⟨listed, found, _, done⟩ := (request.reads_findDevice device).answer_bind_eq_ok done
  obtain ⟨headers, loaded, _, done⟩ := (LoadedHeaders.reads_loadAll _ _ _ _ _).answer_bind_eq_ok done
  obtain ⟨text, _, _, done⟩ := (reads_tableText settings catalog listed headers.table).answer_bind_eq_ok done
  refine ⟨headers, text, answer_headersOf configured found loaded, ?_⟩
  exact (Except.ok.inj done).symm

theorem compile_eq_ok {world after : World} (done : request.compile.run.run world = (.ok (), after)) :
    ∃ outputs, request.outputs.answer world.tree = .ok outputs ∧ Wrote outputs world.tree after.tree := by
  obtain ⟨result, final, ran, course⟩ := request.run_compile world
  obtain ⟨rfl, rfl⟩ := Prod.mk.inj (ran.symm.trans done)
  rw [run_fst] at course
  rcases course with ⟨_, _, impossible, _⟩ | ⟨written, left, generated, _, wrote, ⟨rfl, _⟩ | ⟨_, _, _, _, impossible, _⟩⟩
  · cases impossible
  · rw [List.append_nil] at generated
    exact ⟨written, generated, wrote⟩
  · cases impossible

end Request

theorem Wrote.readText_last {earlier : List Output} {output : Output} {before after : FileTree}
    (wrote : Wrote (earlier ++ [output]) before after) : after.readText output.path = .ok output.text := by
  induction earlier generalizing before with
  | nil => exact wrote.single.1
  | cons first rest ih =>
    cases wrote with
    | first grown written later => exact ih later

namespace Request

/-- Asks for the dependency manifest of a device by itself. -/
def manifestOnly (inputs : Request) (directory device : String) : Request :=
  { inputs with destination := Path.join directory (Artifact.dependencies device).fileName }

/-- Asks for the table of a device, and for its dependency manifest at another path. -/
def tableAndManifest (inputs : Request) (directory device manifestPath : String) : Request :=
  { inputs with
    destination := Path.join directory (Artifact.table device).fileName
    dependencies? := some manifestPath }

/-- A manifest that is asked for by itself is the one that is written with the table, for every path without idle
slashes and dots. -/
theorem manifests_agree (inputs : Request) (directory device manifestPath : String) (world first second : World)
    (plain : Path.Plain (inputs.tableAndManifest directory device manifestPath).destination)
    (alone : (inputs.manifestOnly directory device).compile.run.run world = (.ok (), first))
    (together : (inputs.tableAndManifest directory device manifestPath).compile.run.run world = (.ok (), second)) :
    ∃ sources manifest,
      manifest = Dependencies.text ⟨Path.join directory (Artifact.table device).fileName, inputs.catalog :: sources⟩ ∧
      first.tree.readText (Path.join directory (Artifact.dependencies device).fileName) = .ok manifest ∧
      second.tree.readText manifestPath = .ok manifest := by
  obtain ⟨outputs, made, wrote⟩ := compile_eq_ok alone
  obtain ⟨others, printed, placed⟩ := compile_eq_ok together
  obtain ⟨manifest, _, _, _, knownManifest, _⟩ := answer_outputs made
  obtain ⟨table, _, _, _, knownTable, _⟩ := answer_outputs printed
  obtain ⟨called, rfl, rfl, renamed⟩ := Artifact.table_beside_dependencies plain knownManifest knownTable
  obtain ⟨headers, loaded, rfl⟩ := answer_outputs_of_dependencies knownManifest made
  obtain ⟨found, text, again, rfl⟩ := answer_outputs_of_table knownTable printed
  obtain rfl : headers = found := Except.ok.inj (loaded.symm.trans again)
  let target := Path.join directory (Artifact.table device).fileName
  have renamed : Path.withFileName (inputs.manifestOnly directory device).destination (Artifact.table called).fileName =
      target := renamed
  rw [renamed] at wrote
  have last : Wrote ([⟨target, text⟩] ++ [⟨manifestPath, (inputs.dependencies target headers).text⟩]) world.tree
      second.tree := placed
  exact ⟨headers.sources, (inputs.dependencies target headers).text, rfl, wrote.single.1, last.readText_last⟩

/-- Two devices with the same headers. The second one shares the table of the first. -/
def sharedHeaders : FileTree :=
  [(["regs.def"], .file (.text "LW_A\n")),
    (["devices.toml"], .file (.text ("[[device]]\nname = \"a\"\nheader_dir = \"d\"\n[[device]]\nname = \"b\"\n" ++
      "header_dir = \"d\"\n"))),
    (["settings.toml"], .file (.text "search_roots = [\"r\"]\nheader_files = [\"x.h\"]\n")),
    (["drivers"], .directory), (["drivers", "r"], .directory), (["drivers", "r", "d"], .directory),
    (["drivers", "r", "d", "x.h"], .file (.text "#define LW_A 0x10\n"))].foldl (fun tree (names, node) => tree.put names node) {}

def fromSettings : Request :=
  { format := .toml, catalog := "regs.def", devices := "devices.toml", driversRoot := "drivers", destination := "",
    settings? := some "settings.toml" }

private theorem compile_of_toBool {request : Request} {world : World} (done : (request.compile.run.run world).1.toBool) :
    ∃ after, request.compile.run.run world = (.ok (), after) := by
  generalize request.compile.run.run world = ended at done
  obtain ⟨result, after⟩ := ended
  cases result with
  | ok value => exact ⟨after, rfl⟩
  | error failure => cases done

theorem manifests_agree_duplicate :
    ∃ first second manifest,
      (fromSettings.manifestOnly "out/t" "b").compile.run.run { tree := sharedHeaders } = (.ok (), first) ∧
      (fromSettings.tableAndManifest "out/t" "b" "b.deps").compile.run.run { tree := sharedHeaders } = (.ok (), second) ∧
      first.tree.readText "out/t/lwhal_table_b.d" = .ok manifest ∧ second.tree.readText "b.deps" = .ok manifest := by
  have alone : ((fromSettings.manifestOnly "out/t" "b").compile.run.run { tree := sharedHeaders }).1.toBool := by
    decide +kernel
  have together : ((fromSettings.tableAndManifest "out/t" "b" "b.deps").compile.run.run { tree := sharedHeaders }).1.toBool := by
    decide +kernel
  obtain ⟨first, alone⟩ := compile_of_toBool alone
  obtain ⟨second, together⟩ := compile_of_toBool together
  obtain ⟨_, manifest, _, read, same⟩ := manifests_agree _ _ _ _ _ _ _ (by decide) alone together
  exact ⟨first, second, manifest, alone, together, read, same⟩

end Request
end RegisterCatalog
