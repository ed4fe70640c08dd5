import RegisterCatalog.Proofs.FileEffects

/-! What jobs answer. How a job ends depends on the files and not on the messages so far, and a job that only reads
leaves the files to the next. So a sequence of such jobs is a sequence of answers about one and the same tree. -/

namespace RegisterCatalog

theorem World.serve_congr {first second : World} (same : first.tree = second.tree) (operation : FileRequest α) :
    (first.serve operation).1 = (second.serve operation).1 ∧
      (first.serve operation).2.tree = (second.serve operation).2.tree := by
  cases operation with
  | isDirectory path | isFile path | readText path => exact ⟨by simp only [serve, same], same⟩
  | makeDirectories path => exact ⟨by simp only [serve, same], by simp only [serve, same]⟩
  | writeText path text =>
    simp only [serve, same]
    split <;> exact ⟨rfl, by simp only [same]⟩
  | log message => exact ⟨rfl, same⟩

namespace Job

/-- Two jobs that do the same to the same files and end alike. Their messages may be different. -/
def Alike (one two : Job α) : Prop :=
  ∀ first second : World, first.tree = second.tree →
    (one.run.run first).1 = (two.run.run second).1 ∧ (one.run.run first).2.tree = (two.run.run second).2.tree

theorem Alike.refl (job : Job α) : job.Alike job := by
  have programs : ∀ program : Program (Except Failure α), ∀ first second : World, first.tree = second.tree →
      (program.run first).1 = (program.run second).1 ∧ (program.run first).2.tree = (program.run second).2.tree := by
    intro program
    induction program with
    | pure value => exact fun first second same => ⟨rfl, same⟩
    | request operation next ih =>
      intro first second same
      obtain ⟨reply, tree⟩ := World.serve_congr same operation
      simp only [Program.run, reply]
      exact ih _ _ _ tree
  exact programs job.run

theorem Alike.bind {one two : Job α} {next other : α → Job β} (alike : one.Alike two)
    (later : ∀ value, (next value).Alike (other value)) : (one >>= next).Alike (two >>= other) := by
  intro first second same
  obtain ⟨result, tree⟩ := alike first second same
  rw [run_bind, run_bind]
  cases left : one.run.run first with
  | mk ended after =>
    cases right : two.run.run second with
    | mk ended' after' =>
      rw [left, right] at result tree
      dsimp only at result tree
      subst result
      cases ended with
      | ok value => exact later value after after' tree
      | error failure => exact ⟨rfl, tree⟩

theorem alike_log (first second : LogMessage) : (log first).Alike (log second) :=
  fun _ _ same => ⟨rfl, same⟩

/-- How a job ends on a tree of files. -/
def answer (job : Job α) (tree : FileTree) : Except Failure α := (job.run.run { tree }).1

theorem run_fst (job : Job α) (world : World) : (job.run.run world).1 = job.answer world.tree :=
  (Alike.refl job world { tree := world.tree } rfl).1

theorem answer_pure (value : α) (tree : FileTree) : (pure value : Job α).answer tree = .ok value := rfl

theorem Reads.answer_bind {post : α → Prop} {job : Job α} (reads : job.Reads post) (next : α → Job β) (tree : FileTree) :
    (job >>= next).answer tree = job.answer tree >>= fun value => (next value).answer tree := by
  have kept := (Program.Reads.run reads { tree }).2
  rw [answer, run_bind, answer]
  cases ran : job.run.run { tree } with
  | mk result after =>
    rw [ran] at kept
    cases result with
    | error failure => rfl
    | ok value =>
      have next := run_fst (next value) after
      rw [kept] at next
      exact next

theorem Reads.answer_bind_eq_ok {post : α → Prop} {job : Job α} (reads : job.Reads post) {next : α → Job β}
    {tree : FileTree} {result : β} (done : (job >>= next).answer tree = .ok result) :
    ∃ value, job.answer tree = .ok value ∧ post value ∧ (next value).answer tree = .ok result := by
  rw [reads.answer_bind] at done
  obtain ⟨value, read, later⟩ := Outcome.bind_eq_ok.mp done
  exact ⟨value, read, (Program.Reads.run reads { tree }).1 value read, later⟩

theorem answer_readText (path : String) (tree : FileTree) :
    (readText path).answer tree = (tree.readText path).mapError (.access path ·) := by
  rw [readText, attempt, (reads_send (show (FileRequest.readText path).OnlyReads from trivial)).answer_bind]
  change (Except.ok (tree.readText path) >>= _ : Except Failure String) = _
  cases tree.readText path <;> rfl

end Job
end RegisterCatalog
