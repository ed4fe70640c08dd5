import RegisterCatalog.Manifest.Format
import RegisterCatalog.Proofs.FileEffects

/-! The order in which a compilation uses files. All that is read is read before the first output is written, and
the outputs are written one after the other. So a compilation that fails has written none of them, or the table
before a dependency manifest that could not be written. -/

namespace RegisterCatalog
open Job

namespace LoadedHeaders

theorem reads_firstFile? (paths : List String) : (firstFile? paths).Reads fun _ => True := by
  induction paths with
  | nil => exact reads_pure trivial
  | cons path rest ih =>
    apply (reads_send (show (FileRequest.isFile path).OnlyReads from trivial)).bind
    intro there _
    cases there with
    | true => exact reads_pure trivial
    | false => exact ih

theorem reads_loadAll (settings : Settings) (driversRoot : String) (device : Device) (loaded : LoadedHeaders)
    (files : List String) : (loadAll settings driversRoot device loaded files).Reads fun _ => True := by
  induction files generalizing loaded with
  | nil => exact reads_pure trivial
  | cons file rest ih =>
    apply (reads_firstFile? _).bind
    intro found _
    cases found with
    | none => exact (reads_log _).bind fun _ _ => reads_pure trivial
    | some path =>
      apply (reads_log _).bind
      intro _ _
      apply (reads_readText path).bind
      intro text _
      exact ih _

end LoadedHeaders

namespace Request

variable (request : Request)

theorem reads_findDevice (name : String) : (request.findDevice name).Reads fun listed => listed.device.name = name := by
  apply (reads_readWith request.devices request.format.devices?).bind
  intro list _
  split
  next found => exact reads_pure (by simpa using List.find?_some found)
  · exact reads_throw _

/-- A device that shares the table of another gets a stub; one that has headers and is the first with them gets
its table. -/
def IsTableText (settings : Settings) (catalog : Catalog) (listed : ListedDevice) (table : MacroTable) (text : String) : Prop :=
  if listed.list.isDuplicate listed.place listed.device then
    text = DeviceTable.stub listed.device s!"shares the table of {(listed.list.canonical listed.device).name}"
  else table.isEmpty ∨ ∃ built, text = built.text ∧
    DeviceTable.build settings catalog listed.device (listed.list.sharing listed.device) table = .ok built

theorem reads_tableText (settings : Settings) (catalog : Catalog) (listed : ListedDevice) (table : MacroTable) :
    (tableText settings catalog listed table).Reads (IsTableText settings catalog listed table) := by
  unfold tableText IsTableText
  dsimp only
  split
  · exact (reads_log _).bind fun _ _ => reads_pure rfl
  · split
    next empty => exact reads_pure (.inl empty)
    · apply (reads_forM reads_log).bind
      intro _ _
      split
      next built made => exact reads_pure (.inr ⟨built, rfl, made⟩)
      · exact reads_throw _

theorem reads_tableOutputs (settings : Settings) (catalog : Catalog) (name : String) :
    (request.tableOutputs settings catalog name).Reads fun outputs => ∃ text manifest,
      outputs = ⟨request.destination, text⟩ :: request.dependencies?.toList.map fun path => ⟨path, manifest⟩ := by
  apply (request.reads_findDevice name).bind
  intro listed _
  apply (LoadedHeaders.reads_loadAll _ _ _ _ _).bind
  intro headers _
  apply (reads_tableText settings catalog listed headers.table).bind
  intro text _
  exact reads_pure ⟨text, _, rfl⟩

theorem reads_dependenciesText (settings : Settings) (name : String) :
    (request.dependenciesText settings name).Reads fun _ => True := by
  apply (request.reads_findDevice name).bind
  intro listed _
  apply (LoadedHeaders.reads_loadAll _ _ _ _ _).bind
  intro headers _
  exact reads_pure trivial

theorem reads_bindingsText (settings : Settings) (catalog : Catalog) :
    (request.bindingsText settings catalog).Reads fun _ => True := by
  apply (reads_readLines request.allowListPath AllowList.read).bind
  intro allowed _
  exact (reads_forM fun _ => reads_log _).bind fun _ _ => reads_pure trivial

theorem reads_artifact : request.artifact.Reads fun artifact => Artifact.ofPath request.destination = .ok artifact := by
  unfold artifact
  cases named : Artifact.ofPath request.destination with
  | ok artifact => exact reads_pure rfl
  | error name => exact reads_throw _

theorem reads_readSettings : request.readSettings.Reads fun _ => True := by
  unfold readSettings
  split
  · exact (reads_readWith _ _).imp fun _ _ => trivial
  · exact reads_pure trivial

theorem reads_layout (settings : Settings) : (layout settings).Reads fun _ => True := by
  unfold layout
  split
  · exact reads_pure trivial
  · exact reads_throw _

theorem reads_readCatalog (settings : Settings) (layout : Layout) :
    (request.readCatalog settings layout).Reads fun _ => True := by
  apply (reads_readLines request.catalog (Catalog.read settings layout)).bind
  intro catalog _
  exact (reads_log _).bind fun _ _ => reads_pure trivial

/-- What a request writes: one file, or a table with its dependency manifest. -/
def Planned (outputs : List Output) : Prop :=
  (∃ text, outputs = [⟨request.destination, text⟩]) ∨
  ∃ device path text manifest, Artifact.ofPath request.destination = .ok (.table device) ∧
    request.dependencies? = some path ∧ outputs = [⟨request.destination, text⟩, ⟨path, manifest⟩]

theorem reads_outputs : request.outputs.Reads request.Planned := by
  apply (reads_send (show (FileRequest.isDirectory request.driversRoot).OnlyReads from trivial)).bind
  intro present _
  cases present with
  | false => exact reads_throw _
  | true =>
    apply request.reads_artifact.bind
    intro artifact named
    apply request.reads_readSettings.bind
    intro settings _
    apply (reads_layout settings).bind
    intro layout _
    apply (request.reads_readCatalog settings layout).bind
    intro catalog _
    cases artifact with
    | identities level => exact reads_pure (.inl ⟨_, rfl⟩)
    | bindings => exact (request.reads_bindingsText settings catalog).bind fun text _ => reads_pure (.inl ⟨text, rfl⟩)
    | dependencies device =>
      exact (request.reads_dependenciesText settings device).bind fun text _ => reads_pure (.inl ⟨text, rfl⟩)
    | table device =>
      apply (request.reads_tableOutputs settings catalog device).imp
      rintro outputs ⟨text, manifest, rfl⟩
      cases beside : request.dependencies? with
      | none => exact .inl ⟨text, rfl⟩
      | some path => exact .inr ⟨device, path, text, manifest, named, beside, rfl⟩

end Request

theorem Job.run_attempt (path : String) (operation : FileRequest (Except FileFault α)) (world : World) :
    (attempt path operation).run.run world =
      ((world.serve operation).1.mapError (Failure.access path), (world.serve operation).2) := by
  have sent : (send operation).run.run world = (.ok (world.serve operation).1, (world.serve operation).2) := rfl
  rw [attempt, run_bind, sent]
  cases world.serve operation with
  | mk reply after => cases reply <;> rfl

namespace Output
open FileTree

/-- The failure is about this output or the directory it is in. -/
def Blames (output : Output) (failure : Failure) : Prop :=
  ∃ path fault, failure = .access path fault ∧ (path = output.path ∨ Path.parent? output.path = some path)

def makeRoom (output : Output) : Job Unit :=
  match Path.parent? output.path with
  | some above => if above.isEmpty then pure () else Job.attempt above (.makeDirectories above)
  | none => pure ()

theorem write_eq (output : Output) :
    output.write = output.makeRoom >>= fun _ =>
      Job.attempt output.path (.writeText output.path output.text) >>= fun _ => Job.log (.info s!"wrote {output.path}") := by
  unfold write makeRoom
  cases Path.parent? output.path with
  | none => rfl
  | some above =>
    dsimp only
    cases above.isEmpty <;> rfl

theorem run_makeRoom (output : Output) (world : World) :
    Grown world.tree (output.makeRoom.run.run world).2.tree ∧
      ∀ failure, (output.makeRoom.run.run world).1 = .error failure → output.Blames failure := by
  unfold makeRoom
  cases parent : Path.parent? output.path with
  | none => exact ⟨.refl _, by rintro failure ⟨⟩⟩
  | some above =>
    dsimp only
    split
    · exact ⟨.refl _, by rintro failure ⟨⟩⟩
    · rw [run_attempt]
      refine ⟨grown_makeDirectories world.tree above (above.length + 1), ?_⟩
      intro failure failed
      cases reply : (world.serve (.makeDirectories above)).1 with
      | ok done => simp [reply, Except.mapError] at failed
      | error fault =>
        simp only [reply, Except.mapError, Except.error.injEq] at failed
        exact ⟨above, fault, failed.symm, .inr parent⟩

/-- Writing an output fails and leaves all files as they are, or writes one file. -/
theorem run_write (output : Output) (world : World) :
    (∃ failure after, output.write.run.run world = (.error failure, after) ∧ output.Blames failure ∧
      Grown world.tree after.tree) ∨
    ∃ after middle names, output.write.run.run world = (.ok (), after) ∧ Grown world.tree middle ∧
      Written middle after.tree output.path output.text names := by
  obtain ⟨grown, blamed⟩ := output.run_makeRoom world
  rw [write_eq, run_bind]
  cases room : output.makeRoom.run.run world with
  | mk result between =>
    rw [room] at grown blamed
    cases result with
    | error failure => exact .inl ⟨failure, between, rfl, blamed failure rfl, grown⟩
    | ok made =>
      dsimp only
      rw [run_bind, run_attempt]
      cases done : between.tree.write output.path (.text output.text) with
      | error fault =>
        refine .inl ⟨.access output.path fault, between, ?_, ⟨_, _, rfl, .inl rfl⟩, grown⟩
        simp [World.serve, done, Except.mapError]
      | ok tree =>
        obtain ⟨names, written⟩ := written_of_write done
        let logged : World := { tree, messages := .info s!"wrote {output.path}" :: between.messages }
        refine .inr ⟨logged, between.tree, names, ?_, grown, written⟩
        simp only [World.serve, done, Except.mapError]
        rfl

end Output

open FileTree in
/-- Outputs that were written one after the other, with directories made in between. -/
inductive Wrote : List Output → FileTree → FileTree → Prop
  | none {before after : FileTree} (grown : Grown before after) : Wrote [] before after
  | first {output : Output} {outputs : List Output} {before middle next after : FileTree} {names : List String}
    (grown : Grown before middle) (written : Written middle next output.path output.text names)
    (rest : Wrote outputs next after) : Wrote (output :: outputs) before after

theorem run_writes (outputs : List Output) (world : World) :
    ∃ written left result after, outputs = written ++ left ∧
      (outputs.forM Output.write).run.run world = (result, after) ∧ Wrote written world.tree after.tree ∧
      ((left = [] ∧ result = .ok ()) ∨
        ∃ next rest failure, left = next :: rest ∧ result = .error failure ∧ next.Blames failure) := by
  induction outputs generalizing world with
  | nil => exact ⟨[], [], _, _, rfl, rfl, .none (.refl _), .inl ⟨rfl, rfl⟩⟩
  | cons output rest ih =>
    have unfolded : ((output :: rest).forM Output.write).run.run world =
        (output.write >>= fun _ => rest.forM Output.write).run.run world := rfl
    rw [run_bind] at unfolded
    rcases output.run_write world with ⟨failure, after, failed, blamed, grown⟩ | ⟨after, middle, names, done, grown, written⟩
    · rw [failed] at unfolded
      exact ⟨[], output :: rest, _, after, rfl, unfolded, .none grown, .inr ⟨output, rest, failure, rfl, rfl, blamed⟩⟩
    · rw [done] at unfolded
      obtain ⟨first, left, result, final, split, ran, wrote, ended⟩ := ih after
      exact ⟨output :: first, left, result, final, by rw [split, List.cons_append], unfolded.trans ran,
        .first grown written wrote, ended⟩

namespace Wrote

/-- After a single output its path reads as it was written, and no other file is changed. -/
theorem single {output : Output} {before after : FileTree} (wrote : Wrote [output] before after) :
    after.readText output.path = .ok output.text ∧
      ∃ names, after.file? names = some (.text output.text) ∧
        ∀ other, other ≠ names → after.file? other = before.file? other := by
  cases wrote with
  | @first _ _ _ middle next _ names grown written rest =>
    cases rest with
    | none later =>
      refine ⟨later.readText written.reads, names, ?_, ?_⟩
      · rw [later.file?, FileTree.file?, written.placed]
      · intro other different
        rw [later.file?, ← grown.file? other, FileTree.file?, FileTree.file?, written.others other different]

end Wrote

namespace Request

/-- A compilation fails before it writes anything, or writes its outputs up to the first that cannot be written. -/
theorem run_compile (request : Request) (world : World) :
    ∃ result after, request.compile.run.run world = (result, after) ∧
      ((∃ failure, (request.outputs.run.run world).1 = .error failure ∧ result = .error failure ∧ after.tree = world.tree) ∨
      ∃ written left, (request.outputs.run.run world).1 = .ok (written ++ left) ∧ request.Planned (written ++ left) ∧
        Wrote written world.tree after.tree ∧
        ((left = [] ∧ result = .ok ()) ∨
          ∃ next rest failure, left = next :: rest ∧ result = .error failure ∧ next.Blames failure)) := by
  obtain ⟨planned, unchanged⟩ := request.reads_outputs.run world
  have compiled : request.compile.run.run world =
      (request.outputs >>= fun outputs => outputs.forM Output.write).run.run world := rfl
  rw [run_bind] at compiled
  cases generated : request.outputs.run.run world with
  | mk result between =>
    rw [generated] at planned unchanged compiled
    cases result with
    | error failure => exact ⟨_, between, compiled, .inl ⟨failure, rfl, rfl, unchanged⟩⟩
    | ok outputs =>
      obtain ⟨written, left, result, after, rfl, ran, wrote, ended⟩ := run_writes outputs between
      rw [unchanged] at wrote
      exact ⟨result, after, compiled.trans ran, .inr ⟨written, left, rfl, planned _ rfl, wrote, ended⟩⟩

end Request
end RegisterCatalog
