import RegisterCatalog.Failure
import RegisterCatalog.Files.Tree
import RegisterCatalog.Proofs.Outcome

/-! What programs do to files. Most requests only read. Making directories adds nothing but directories, and
writing changes one file, which then reads back as it was written. -/

namespace RegisterCatalog

def FileRequest.OnlyReads : FileRequest α → Prop
  | .makeDirectories _ => False
  | .writeText _ _ => False
  | _ => True

theorem World.serve_tree {operation : FileRequest α} (reads : operation.OnlyReads) (world : World) :
    (world.serve operation).2.tree = world.tree := by
  cases operation with
  | makeDirectories path => cases reads
  | writeText path text => cases reads
  | isDirectory path | isFile path | readText path | log message => rfl

/-- A program that only reads, whatever the replies are, and ends with what `post` allows. -/
def Program.Reads (post : α → Prop) : Program α → Prop
  | .pure value => post value
  | .request operation next => operation.OnlyReads ∧ ∀ reply, (next reply).Reads post

theorem Program.Reads.bind {middle : α → Prop} {post : β → Prop} {program : Program α} {next : α → Program β}
    (first : program.Reads middle) (rest : ∀ value, middle value → (next value).Reads post) :
    (program >>= next).Reads post := by
  induction program with
  | pure value => exact rest value first
  | request operation resume ih => exact ⟨first.1, fun reply => ih reply (first.2 reply)⟩

theorem Program.Reads.imp {post weaker : α → Prop} {program : Program α} (reads : program.Reads post)
    (implies : ∀ value, post value → weaker value) : program.Reads weaker := by
  induction program with
  | pure value => exact implies value reads
  | request operation next ih => exact ⟨reads.1, fun reply => ih reply (reads.2 reply)⟩

theorem Program.Reads.run {post : α → Prop} {program : Program α} (reads : program.Reads post) (world : World) :
    post (program.run world).1 ∧ (program.run world).2.tree = world.tree := by
  induction program generalizing world with
  | pure value => exact ⟨reads, rfl⟩
  | request operation next ih =>
    obtain ⟨result, tree⟩ := ih (world.serve operation).1 (reads.2 _) (world.serve operation).2
    exact ⟨result, tree.trans (World.serve_tree reads.1 world)⟩

namespace Job

variable {middle : α → Prop} {post : β → Prop} {job : Job α} {next : α → Job β}

theorem run_bind (job : Job α) (next : α → Job β) (world : World) :
    (job >>= next).run.run world =
      match job.run.run world with
      | (.ok value, after) => (next value).run.run after
      | (.error failure, after) => (.error failure, after) := by
  change (job.run >>= ExceptT.bindCont next).run world = _
  rw [Program.run_bind]
  cases job.run.run world with
  | mk result after => cases result <;> rfl

/-- A job that only reads, and whose result, if there is one, is as `post` says. -/
def Reads (post : α → Prop) (job : Job α) : Prop :=
  Program.Reads (fun result => ∀ value, result = .ok value → post value) job.run

theorem Reads.bind (first : job.Reads middle) (rest : ∀ value, middle value → (next value).Reads post) :
    (job >>= next).Reads post := by
  apply Program.Reads.bind first
  intro result allowed
  cases result with
  | ok value => exact rest value (allowed value rfl)
  | error failure =>
    intro value impossible
    cases impossible

theorem Reads.imp {weaker : α → Prop} (reads : job.Reads middle) (implies : ∀ value, middle value → weaker value) :
    job.Reads weaker :=
  Program.Reads.imp reads fun _ allowed value same => implies value (allowed value same)

theorem reads_pure {value : α} (allowed : middle value) : (pure value : Job α).Reads middle := by
  intro result same
  cases same
  exact allowed

theorem reads_throw (failure : Failure) : (throw failure : Job α).Reads middle := by
  intro value impossible
  cases impossible

theorem reads_send {operation : FileRequest α} (reads : operation.OnlyReads) : (send operation).Reads fun _ => True :=
  ⟨reads, fun _ _ _ => trivial⟩

theorem reads_log (message : LogMessage) : (log message).Reads fun _ => True := reads_send trivial

theorem reads_attempt {path : String} {operation : FileRequest (Except FileFault α)} (reads : operation.OnlyReads) :
    (attempt path operation).Reads fun _ => True := by
  apply (reads_send reads).bind
  intro reply _
  cases reply with
  | ok value => exact reads_pure trivial
  | error fault => exact reads_throw _

theorem reads_readText (path : String) : (readText path).Reads fun _ => True := reads_attempt trivial

theorem reads_readWith (path : String) (read : String → Option α) :
    (readWith path read).Reads fun value => ∃ text, read text = some value := by
  apply (reads_readText path).bind
  intro text _
  cases known : read text with
  | some value => exact reads_pure ⟨text, known⟩
  | none => exact reads_throw _

theorem reads_readLines (path : String) (read : String → Except LineFault α) :
    (readLines path read).Reads fun value => ∃ text, read text = .ok value := by
  apply (reads_readText path).bind
  intro text _
  cases known : read text with
  | ok value => exact reads_pure ⟨text, known⟩
  | error fault => exact reads_throw _

theorem reads_forM {items : List α} {act : α → Job Unit} (each : ∀ item, (act item).Reads fun _ => True) :
    (items.forM act).Reads fun _ => True := by
  induction items with
  | nil => exact reads_pure trivial
  | cons item rest ih => exact (each item).bind fun _ _ => ih

end Job

namespace FileTree

@[simp] theorem nodes_put (tree : FileTree) (names other : List String) (node : FileNode) :
    (tree.put names node).nodes[other]? = if names = other then some node else tree.nodes[other]? := by
  simp [put, Std.TreeMap.getElem?_insert]

def file? (tree : FileTree) (names : List String) : Option Contents :=
  match tree.nodes[names]? with
  | some (.file contents) => some contents
  | _ => none

/-- Nothing was changed but that there are more directories. -/
def Grown (before after : FileTree) : Prop :=
  ∀ names : List String, after.nodes[names]? = before.nodes[names]? ∨
    before.nodes[names]? = none ∧ after.nodes[names]? = some .directory

theorem Grown.refl (tree : FileTree) : Grown tree tree := fun _ => .inl rfl

theorem Grown.trans {first second third : FileTree} (one : Grown first second) (two : Grown second third) :
    Grown first third := by
  intro names
  rcases two names with same | ⟨missing, made⟩
  · rcases one names with kept | ⟨missing, made⟩
    · exact .inl (same.trans kept)
    · exact .inr ⟨missing, same.trans made⟩
  · rcases one names with kept | ⟨_, there⟩
    · exact .inr ⟨kept ▸ missing, made⟩
    · rw [there] at missing
      cases missing

theorem Grown.file? {before after : FileTree} (grown : Grown before after) (names : List String) :
    after.file? names = before.file? names := by
  unfold FileTree.file?
  rcases grown names with same | ⟨missing, made⟩
  · rw [same]
  · rw [missing, made]

@[simp] theorem node?_below (tree : FileTree) (names : List String) (name : String) :
    tree.node? (.inside (names ++ [name])) = tree.nodes[names ++ [name]]? := by
  cases names <;> rfl

theorem child?_eq_none {tree : FileTree} {names : List String} {name : String}
    (missing : tree.child? (.inside names) name = none) : tree.nodes[names ++ [name]]? = none := by
  simpa [child?] using missing

theorem grown_makeDirectory {tree after : FileTree} {path : String} (done : tree.makeDirectory path = .ok after) :
    Grown tree after := by
  obtain ⟨spot, _, done⟩ := Outcome.bind_eq_ok.mp done
  split at done
  · cases done
  · split at done
    · cases done
    · split at done
      · cases done
      · cases done
      next names above missing =>
        rw [above] at missing
        cases done
        intro other
        rw [nodes_put]
        split
        next same => exact .inr ⟨same ▸ child?_eq_none missing, rfl⟩
        next => exact .inl rfl

theorem grown_ensureDirectory {tree after : FileTree} {path : String} (done : tree.ensureDirectory path = .ok after) :
    Grown tree after := by
  unfold ensureDirectory at done
  split at done
  next made =>
    cases done
    exact grown_makeDirectory made
  next =>
    split at done <;> cases done
    exact .refl tree

theorem grown_makeDirectories (tree : FileTree) (path : String) (budget : Nat) :
    Grown tree (tree.makeDirectories path budget).2 := by
  induction budget generalizing tree path with
  | zero => exact .refl tree
  | succ budget ih =>
    unfold makeDirectories
    split
    · exact .refl tree
    · split
      next made => exact grown_ensureDirectory made
      next above _ _ =>
        have upper := ih tree above
        split
        next failed => exact failed ▸ upper
        next between made =>
          rw [made] at upper
          split
          next done => exact upper.trans (grown_ensureDirectory done)
          next => exact upper
      next => exact .refl tree

/-- Every directory is still one, and nothing has been taken away. -/
def Stays (before after : FileTree) : Prop :=
  ∀ (names : List String) (node : FileNode), before.nodes[names]? = some node →
    ∃ new, after.nodes[names]? = some new ∧ (node = .directory → new = .directory)

theorem Grown.stays {before after : FileTree} (grown : Grown before after) : Stays before after := by
  intro names node there
  rcases grown names with same | ⟨missing, _⟩
  · exact ⟨node, same.trans there, id⟩
  · rw [missing] at there
    cases there

theorem stays_put {tree : FileTree} {names : List String} (node : FileNode)
    (free : tree.nodes[names]? ≠ some .directory) : Stays tree (tree.put names node) := by
  intro place old there
  rw [nodes_put]
  split
  next same =>
    refine ⟨node, rfl, ?_⟩
    rintro rfl
    exact absurd (same ▸ there) free
  next => exact ⟨old, there, id⟩

theorem Stays.node? {before after : FileTree} (stays : Stays before after) {place : FilePlace} {node : FileNode}
    (there : before.node? place = some node) : ∃ new, after.node? place = some new ∧ (node = .directory → new = .directory) := by
  cases place with
  | outside =>
    cases there
    exact ⟨_, rfl, id⟩
  | inside names =>
    cases names with
    | nil =>
      cases there
      exact ⟨_, rfl, id⟩
    | cons first rest => exact stays _ _ there

theorem Stays.child? {before after : FileTree} (stays : Stays before after) {place child : FilePlace} {name : String}
    (found : before.child? place name = some child) : after.child? place name = some child := by
  cases place with
  | outside => cases found
  | inside names =>
    simp only [FileTree.child?] at found ⊢
    split at found
    next known =>
      obtain ⟨node, there⟩ := Option.isSome_iff_exists.mp known
      obtain ⟨new, also, _⟩ := stays.node? there
      rw [also]
      exact found
    next => cases found

/-- A way through a tree can still be gone. -/
theorem Stays.enter {before after : FileTree} (stays : Stays before after) {place found : FilePlace} {piece : String}
    (done : before.enter place piece = .ok found) : after.enter place piece = .ok found := by
  unfold FileTree.enter at done ⊢
  cases there : before.node? place with
  | none => simp [there] at done
  | some node =>
    cases node with
    | file contents => simp [there] at done
    | directory =>
      obtain ⟨new, also, directory⟩ := stays.node? there
      rw [directory rfl] at also
      simp only [there] at done
      simp only [also]
      cases inside : before.child? place piece with
      | some child => simpa only [inside, stays.child? inside] using done
      | none =>
        simp only [inside] at done
        split at done
        next filler => rwa [if_pos filler]
        next solid =>
          rw [if_neg solid]
          split at done
          next up => rwa [if_pos up]
          next => split at done <;> cases done

theorem Stays.walk {before after : FileTree} (stays : Stays before after) {place found : FilePlace} {pieces : List String}
    (done : pieces.foldlM before.enter place = .ok found) : pieces.foldlM after.enter place = .ok found := by
  induction pieces generalizing place with
  | nil => exact done
  | cons piece rest ih =>
    rw [List.foldlM_cons] at done ⊢
    obtain ⟨next, entered, done⟩ := Outcome.bind_eq_ok.mp done
    exact Outcome.bind_eq_ok.mpr ⟨next, stays.enter entered, ih done⟩

theorem readText_eq_ok {tree : FileTree} {path text : String} :
    tree.readText path = .ok text ↔
      ∃ place, tree.locate path = .ok place ∧ tree.node? place = some (.file (.text text)) := by
  constructor
  · intro done
    obtain ⟨node, found, done⟩ := Outcome.bind_eq_ok.mp done
    obtain ⟨place, located, found⟩ := Outcome.bind_eq_ok.mp found
    split at found
    next node' there =>
      cases found
      split at done
      · cases done
      · cases done
        exact ⟨place, located, there⟩
      · cases done
    next => cases found
  · intro found
    obtain ⟨place, located, there⟩ := found
    simp [FileTree.readText, FileTree.at?, located, there, bind, Except.bind, pure, Except.pure]

theorem Grown.readText {before after : FileTree} (grown : Grown before after) {path text : String}
    (done : before.readText path = .ok text) : after.readText path = .ok text := by
  rw [readText_eq_ok] at done ⊢
  obtain ⟨place, located, there⟩ := done
  obtain ⟨_, checked, walked⟩ := Outcome.bind_eq_ok.mp located
  refine ⟨place, Outcome.bind_eq_ok.mpr ⟨(), checked, grown.stays.walk walked⟩, ?_⟩
  cases place with
  | outside => cases there
  | inside names =>
    cases names with
    | nil => cases there
    | cons first rest =>
      rcases grown (first :: rest) with same | ⟨missing, _⟩
      · exact same.trans there
      · cases there.symm.trans missing

/-- A spot without a slash at its end is reached by all pieces of its path but the last. -/
theorem spot_eq_ok {tree : FileTree} {path : String} {spot : Spot} (done : tree.spot path = .ok spot)
    (named : spot.slash = false) :
    ∃ before, checkPath path = .ok () ∧ Path.pieces path = before ++ [spot.name] ∧
      before.foldlM tree.enter (start path) = .ok spot.above ∧ tree.node? spot.above = some .directory := by
  obtain ⟨_, checked, done⟩ := Outcome.bind_eq_ok.mp done
  dsimp only at done
  split at done
  · cases done
  next name before rest =>
    obtain ⟨above, walked, done⟩ := Outcome.bind_eq_ok.mp done
    split at done
    next directory =>
      cases done
      refine ⟨before.reverse, checked, ?_, walked, directory⟩
      have last : (Path.pieces path).reverse = name :: before := by
        rw [← rest]
        cases pieces : (Path.pieces path).reverse with
        | nil => simp [pieces] at rest
        | cons first others =>
          have final : (Path.pieces path).getLast? = some first := by
            rw [← List.head?_reverse, pieces, List.head?_cons]
          rw [List.dropWhile_cons_of_neg]
          simpa [final] using named
      rw [← List.reverse_reverse (Path.pieces path), last, List.reverse_cons]
    next => cases done

/-- One file was written, and what the path leads to now is what was written. -/
structure Written (before after : FileTree) (path text : String) (names : List String) : Prop where
  placed : after.nodes[names]? = some (.file (.text text))
  others : ∀ other, other ≠ names → after.nodes[other]? = before.nodes[other]?
  reads : after.readText path = .ok text

theorem written_of_write {tree after : FileTree} {path text : String} (done : tree.write path (.text text) = .ok after) :
    ∃ names, Written tree after path text names := by
  obtain ⟨spot, found, done⟩ := Outcome.bind_eq_ok.mp done
  split at done
  · cases done
  next plain =>
    split at done
    · cases done
    next short =>
      split at done
      · cases done
      next names above =>
        dsimp only at done
        split at done
        · cases done
        next other =>
          cases done
          simp only [Bool.or_eq_true, not_or, Bool.not_eq_true] at plain
          obtain ⟨⟨slash, solid⟩, down⟩ := plain
          obtain ⟨before, checked, pieces, walked, directory⟩ := spot_eq_ok found slash
          rw [above] at walked directory
          have stays := stays_put (FileNode.file (.text text)) (by simpa using other)
          refine ⟨names ++ [spot.name], by simp, ?_, ?_⟩
          · intro place different
            rw [nodes_put, if_neg different.symm]
          · rw [readText_eq_ok]
            refine ⟨.inside (names ++ [spot.name]), ?_, by simp⟩
            refine Outcome.bind_eq_ok.mpr ⟨(), checked, ?_⟩
            rw [pieces, List.foldlM_append]
            refine Outcome.bind_eq_ok.mpr ⟨_, stays.walk walked, ?_⟩
            obtain ⟨new, also, kept⟩ := stays.node? directory
            rw [kept rfl] at also
            simp [FileTree.enter, FileTree.child?, also, solid, down, short]

end FileTree
end RegisterCatalog
