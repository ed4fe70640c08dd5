import RegisterCatalog.Proofs.GreedyWalk

/-! The number of parameters that comes with the end of a walk. It is the greatest among the definitions that the
walk uses, so it may be greater than the last macro has. -/

namespace RegisterCatalog.MacroTable

/-- The definitions that a walk uses: of a name that it extends to, of a name whose definition it follows, and of the
last name. -/
def definitionsOn (table : MacroTable) : List Waypoint → List Definition
  | here :: there :: rest =>
    (table.get? (if here.pending = there.pending then here.name else there.name)).toList ++
      table.definitionsOn (there :: rest)
  | [last] => (table.get? last.name).toList
  | [] => []

variable {table : MacroTable} {name next : String} {pending later : List String} {definition : Definition}

theorem get?_of_extend (step : table.move name pending = .extend next definition later) :
    table.get? next = some definition := by
  have at_name {other : String} : table.moveAt other ≠ .extend next definition later := by
    unfold moveAt
    split
    · simp
    · split <;> simp
  unfold move at step
  split at step
  · exact absurd step at_name
  · split at step
    next found =>
      cases step
      exact found
    · exact absurd step at_name

theorem get?_of_redirect (step : table.move name pending = .redirect next definition) :
    table.get? name = some definition := by
  have at_name (step : table.moveAt name = .redirect next definition) : table.get? name = some definition := by
    unfold moveAt at step
    split at step
    · cases step
    next found =>
      split at step <;> cases step
      exact found
  unfold move at step
  split at step
  · exact at_name step
  · split at step
    · cases step
    · exact at_name step

theorem last_mem_definitionsOn {start last : Waypoint} {walk : List Waypoint} (walked : Walk table start walk last)
    (defined : table.get? last.name = some definition) : definition ∈ table.definitionsOn walk := by
  induction walked with
  | stay => simp [definitionsOn, defined]
  | move _ onward ih =>
    obtain ⟨others, rfl⟩ := onward.exists_cons
    exact List.mem_append_right _ (ih defined)

/-- A walk that ends brings the greatest number of parameters that it was started with or that it has met. -/
theorem follow_parameters {budget : Nat} {seen : List String} {parameters : Nat} {destination : Destination}
    (done : table.follow name seen pending parameters budget = .ok (some destination)) :
    ∃ walk, Walk table ⟨name, pending⟩ walk ⟨destination.name, []⟩ ∧ Stuck table ⟨destination.name, []⟩ ∧
      table.get? destination.name = some destination.definition ∧
      ∀ bound, destination.parameters ≤ bound ↔
        parameters ≤ bound ∧ ∀ used ∈ table.definitionsOn walk, used.parameters ≤ bound := by
  induction budget generalizing name seen pending parameters with
  | zero => cases done
  | succ budget ih =>
    have chosen := chosen_move table name pending
    unfold follow at done
    cases step : table.move name pending with
    | extend next definition later =>
      rw [step] at chosen done
      obtain ⟨walk, walked, stuck, last, greatest⟩ := ih done
      refine ⟨_, .move (.inl chosen) walked, stuck, last, ?_⟩
      obtain ⟨others, rfl⟩ := walked.exists_cons
      have shorter : pending ≠ later := by
        cases chosen
        simp
      have uses : table.definitionsOn (⟨name, pending⟩ :: ⟨next, later⟩ :: others) =
          definition :: table.definitionsOn (⟨next, later⟩ :: others) := by
        simp [definitionsOn, shorter, get?_of_extend step]
      intro bound
      rw [greatest, uses, List.forall_mem_cons, Nat.max_le, and_assoc]
    | redirect next definition =>
      rw [step] at chosen done
      dsimp only at done
      split at done
      · cases done
      · obtain ⟨walk, walked, stuck, last, greatest⟩ := ih done
        refine ⟨_, .move (.inr chosen) walked, stuck, last, ?_⟩
        obtain ⟨others, rfl⟩ := walked.exists_cons
        have uses : table.definitionsOn (⟨name, pending⟩ :: ⟨next, pending⟩ :: others) =
            definition :: table.definitionsOn (⟨next, pending⟩ :: others) := by
          simp [definitionsOn, get?_of_redirect step]
        intro bound
        rw [greatest, uses, List.forall_mem_cons, Nat.max_le, and_assoc]
    | settle definition =>
      rw [step] at chosen done
      dsimp only at done
      split at done
      next consumed =>
        cases done
        rw [List.isEmpty_iff] at consumed
        subst consumed
        refine ⟨_, .stay, chosen.1, chosen.2, ?_⟩
        have uses : table.definitionsOn [⟨name, []⟩] = [definition] := by
          simp [definitionsOn, chosen.2]
        intro bound
        rw [uses, List.forall_mem_singleton, Nat.max_le]
      · cases done
    | fail =>
      rw [step] at done
      cases done

theorem resolve_parameters {suffixes : List String} {destination : Destination}
    (done : table.resolve name suffixes = .ok (some destination)) :
    ∃ walk, Walk table ⟨name, suffixes⟩ walk ⟨destination.name, []⟩ ∧ Stuck table ⟨destination.name, []⟩ ∧
      table.get? destination.name = some destination.definition ∧
      ∀ bound, destination.parameters ≤ bound ↔ ∀ used ∈ table.definitionsOn walk, used.parameters ≤ bound := by
  obtain ⟨walk, walked, stuck, last, greatest⟩ := follow_parameters done
  exact ⟨walk, walked, stuck, last, fun bound => by simp [greatest]⟩

end RegisterCatalog.MacroTable
