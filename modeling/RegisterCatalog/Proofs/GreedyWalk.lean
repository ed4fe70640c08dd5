import Mathlib.Data.List.Basic
import RegisterCatalog.Header.MacroTable

/-! Following references is a greedy walk: a suffix is taken up as soon as the name with it is defined,
and only otherwise is a definition followed to the name it stands for. -/

namespace RegisterCatalog.MacroTable

/-- A name on a walk, with the suffixes that are still to be taken up. -/
@[ext] structure Waypoint where
  name : String
  pending : List String

inductive Extends (table : MacroTable) : Waypoint → Waypoint → Prop
  | intro {name suffix : String} {pending : List String} (defined : table.contains (name ++ suffix)) :
    Extends table ⟨name, suffix :: pending⟩ ⟨name ++ suffix, pending⟩

/-- No suffix can be taken up, but the definition stands for another defined name. -/
inductive Redirects (table : MacroTable) : Waypoint → Waypoint → Prop
  | intro {here : Waypoint} {definition : Definition} (greedy : ∀ there, ¬ Extends table here there)
    (defined : table.get? here.name = some definition) (different : definition.value ≠ here.name)
    (known : table.contains definition.value) :
    Redirects table here ⟨definition.value, here.pending⟩

def Moves (table : MacroTable) (here there : Waypoint) : Prop :=
  Extends table here there ∨ Redirects table here there

def Stuck (table : MacroTable) (here : Waypoint) : Prop := ∀ there, ¬ Moves table here there

/-- The waypoints of a walk from `start` to `last`, both included. -/
inductive Walk (table : MacroTable) : Waypoint → List Waypoint → Waypoint → Prop
  | stay {start : Waypoint} : Walk table start [start] start
  | move {start next last : Waypoint} {rest : List Waypoint} (moved : Moves table start next)
    (later : Walk table next rest last) : Walk table start (start :: rest) last

/-- No redirection of the walk leads back to a name on it, nor to one of the names `seen` before. -/
def NoReturn (table : MacroTable) (seen : List String) : List Waypoint → Prop
  | here :: there :: rest =>
    (Redirects table here there → there.name ∉ here.name :: seen) ∧
      NoReturn table (here.name :: seen) (there :: rest)
  | _ => True

/-- What a walk has found where it ends: the definition there, if no suffix is left. -/
def found (table : MacroTable) (stop : Waypoint) : Option (String × Definition) :=
  if stop.pending.isEmpty then (table.get? stop.name).map fun definition => (stop.name, definition) else none

variable {table : MacroTable}

theorem Extends.unique {here first second : Waypoint} (one : Extends table here first)
    (two : Extends table here second) : first = second := by
  cases one
  cases two
  rfl

theorem Redirects.unique {here first second : Waypoint} (one : Redirects table here first)
    (two : Redirects table here second) : first = second := by
  obtain ⟨_, defined, _, _⟩ := one
  obtain ⟨_, again, _, _⟩ := two
  cases Option.some.inj (defined.symm.trans again)
  rfl

theorem Moves.unique {here first second : Waypoint} (one : Moves table here first)
    (two : Moves table here second) : first = second := by
  rcases one with one | one <;> rcases two with two | two
  · exact one.unique two
  · obtain ⟨greedy, _, _, _⟩ := two
    exact absurd one (greedy first)
  · obtain ⟨greedy, _, _, _⟩ := one
    exact absurd two (greedy second)
  · exact one.unique two

private theorem stuck_of_greedy {here : Waypoint} (greedy : ∀ there, ¬ Extends table here there)
    (settled : ∀ definition, table.get? here.name = some definition →
      ¬ (definition.value ≠ here.name ∧ table.contains definition.value)) : Stuck table here := by
  intro there moved
  rcases moved with extended | ⟨_, defined, different, known⟩
  · exact greedy there extended
  · exact settled _ defined ⟨different, known⟩

def Chosen (table : MacroTable) (here : Waypoint) : Move → Prop
  | .extend next _ later => Extends table here ⟨next, later⟩
  | .redirect next _ => Redirects table here ⟨next, here.pending⟩
  | .settle definition => Stuck table here ∧ table.get? here.name = some definition
  | .fail => Stuck table here ∧ table.get? here.name = none

private theorem chosen_moveAt {here : Waypoint} (greedy : ∀ there, ¬ Extends table here there) :
    Chosen table here (table.moveAt here.name) := by
  unfold moveAt
  cases seen : table.get? here.name with
  | none => exact ⟨stuck_of_greedy greedy (by simp [seen]), seen⟩
  | some definition =>
    by_cases refers : definition.value ≠ here.name ∧ table.contains definition.value = true
    · simp only [if_pos refers]
      exact .intro greedy seen refers.1 refers.2
    · simp only [if_neg refers]
      refine ⟨stuck_of_greedy greedy ?_, seen⟩
      intro other defined
      cases Option.some.inj (seen.symm.trans defined)
      exact refers

theorem chosen_move (table : MacroTable) (name : String) (pending : List String) :
    Chosen table ⟨name, pending⟩ (table.move name pending) := by
  cases pending with
  | nil =>
    have greedy : ∀ there, ¬ Extends table ⟨name, []⟩ there := by
      intro there extended
      cases extended
    exact chosen_moveAt greedy
  | cons suffix later =>
    cases longer : table.get? (name ++ suffix) with
    | some definition =>
      have defined : table.contains (name ++ suffix) := by simp [contains, longer]
      simp only [move, longer]
      exact Extends.intro defined
    | none =>
      have greedy : ∀ there, ¬ Extends table ⟨name, suffix :: later⟩ there := by
        intro there extended
        cases extended with
        | intro defined => simp [contains, longer] at defined
      simp only [move, longer]
      exact chosen_moveAt greedy

namespace Walk

theorem of_moves {start next stop : Waypoint} {walk : List Waypoint} (walked : Walk table start walk stop)
    (moved : Moves table start next) (stuck : Stuck table stop) :
    ∃ rest, walk = start :: rest ∧ Walk table next rest stop := by
  cases walked with
  | stay => exact absurd moved (stuck next)
  | move other later =>
    cases other.unique moved
    exact ⟨_, rfl, later⟩

theorem of_stuck {start last : Waypoint} {walk : List Waypoint} (walked : Walk table start walk last)
    (stuck : Stuck table start) : walk = [start] ∧ last = start := by
  cases walked with
  | stay => exact ⟨rfl, rfl⟩
  | move moved _ => exact absurd moved (stuck _)

theorem exists_cons {start last : Waypoint} {walk : List Waypoint} (walked : Walk table start walk last) :
    ∃ rest, walk = start :: rest := by
  cases walked <;> exact ⟨_, rfl⟩

end Walk

/-- The ways to end a walk within `budget` names, and what is found there. -/
def Finds (table : MacroTable) (seen : List String) (start : Waypoint) (budget : Nat)
    (result : Option (String × Definition)) : Prop :=
  ∃ walk stop, Walk table start walk stop ∧ Stuck table stop ∧ NoReturn table seen walk ∧
    walk.length ≤ budget ∧ table.found stop = result

theorem finds_of_stuck {seen : List String} {start : Waypoint} {budget : Nat}
    {result : Option (String × Definition)} (stuck : Stuck table start) :
    Finds table seen start (budget + 1) result ↔ table.found start = result := by
  constructor
  · intro finds
    obtain ⟨walk, stop, walked, _, _, _, rfl⟩ := finds
    rw [(walked.of_stuck stuck).2]
  · intro same
    exact ⟨[start], start, .stay, stuck, trivial, by simp, same⟩

theorem finds_of_moves {seen : List String} {start next : Waypoint} {budget : Nat}
    {result : Option (String × Definition)} (moved : Moves table start next)
    (fresh : Redirects table start next → next.name ∉ start.name :: seen) :
    Finds table seen start (budget + 1) result ↔ Finds table (start.name :: seen) next budget result := by
  constructor
  · intro finds
    obtain ⟨walk, stop, walked, stuck, away, short, same⟩ := finds
    obtain ⟨rest, rfl, later⟩ := walked.of_moves moved stuck
    obtain ⟨others, rfl⟩ := later.exists_cons
    exact ⟨_, stop, later, stuck, away.2, by simpa using short, same⟩
  · intro finds
    obtain ⟨walk, stop, walked, stuck, away, short, same⟩ := finds
    obtain ⟨others, rfl⟩ := walked.exists_cons
    exact ⟨_, stop, .move moved walked, stuck, ⟨fresh, away⟩, by simpa using short, same⟩

theorem not_finds_of_return {seen : List String} {start next : Waypoint} {budget : Nat}
    {result : Option (String × Definition)} (moved : Redirects table start next)
    (visited : next.name ∈ start.name :: seen) : ¬ Finds table seen start budget result := by
  intro finds
  obtain ⟨walk, stop, walked, stuck, away, _, _⟩ := finds
  obtain ⟨rest, rfl, later⟩ := walked.of_moves (.inr moved) stuck
  obtain ⟨others, rfl⟩ := later.exists_cons
  exact away.1 moved visited

/-- Following succeeds with what the walk finds, and only if the walk ends in time. -/
theorem follow_ok_iff (table : MacroTable) (budget : Nat) (name : String) (seen pending : List String) (parameters : Nat)
    (result : Option (String × Definition)) :
    (∃ reached, table.follow name seen pending parameters budget = .ok reached ∧
      reached.map (fun destination => (destination.name, destination.definition)) = result) ↔
    Finds table seen ⟨name, pending⟩ budget result := by
  induction budget generalizing name seen pending parameters with
  | zero =>
    constructor
    · intro succeeded
      obtain ⟨_, done, _⟩ := succeeded
      cases done
    · intro finds
      obtain ⟨walk, stop, walked, _, _, short, _⟩ := finds
      obtain ⟨rest, rfl⟩ := walked.exists_cons
      simp at short
  | succ budget ih =>
    have chosen := chosen_move table name pending
    unfold follow
    cases step : table.move name pending with
    | extend next definition later =>
      rw [step] at chosen
      rw [finds_of_moves (.inl chosen)]
      · exact ih next (name :: seen) later _
      · intro redirected
        obtain ⟨greedy, _, _, _⟩ := redirected
        exact absurd chosen (greedy _)
    | redirect next definition =>
      rw [step] at chosen
      dsimp only
      split
      next visited =>
        constructor
        · intro succeeded
          obtain ⟨_, done, _⟩ := succeeded
          cases done
        · intro finds
          exact absurd finds (not_finds_of_return chosen visited)
      next unvisited =>
        rw [finds_of_moves (.inr chosen) (fun _ => unvisited)]
        exact ih next (name :: seen) pending _
    | settle definition =>
      rw [step] at chosen
      rw [finds_of_stuck chosen.1]
      cases pending <;> simp [found, chosen.2]
    | fail =>
      rw [step] at chosen
      rw [finds_of_stuck chosen.1]
      simp [found, chosen.2]

/-- A walk that is given up has gone through the names of its chain, and either there are too many of
them or the last one has been there before. -/
theorem follow_error {budget : Nat} {name : String} {seen pending : List String} {parameters : Nat}
    {cycle : Cycle} (failed : table.follow name seen pending parameters budget = .error cycle) :
    ∃ walk last, Walk table ⟨name, pending⟩ walk last ∧
      cycle.chain = seen.reverse ++ walk.map Waypoint.name ∧
      (walk.length = budget + 1 ∨ ∃ earlier, cycle.chain = earlier ++ [last.name] ∧ last.name ∈ earlier) := by
  induction budget generalizing name seen pending parameters with
  | zero =>
    cases failed
    exact ⟨_, _, .stay, by simp, .inl rfl⟩
  | succ budget ih =>
    have chosen := chosen_move table name pending
    unfold follow at failed
    cases step : table.move name pending with
    | extend next definition later =>
      rw [step] at chosen failed
      obtain ⟨walk, last, walked, names, reason⟩ := ih failed
      exact ⟨_, last, .move (.inl chosen) walked, by simpa using names, by simpa using reason⟩
    | redirect next definition =>
      rw [step] at chosen failed
      dsimp only at failed
      split at failed
      next visited =>
        cases failed
        refine ⟨_, _, .move (.inr chosen) .stay, by simp, .inr ⟨seen.reverse ++ [name], by simp, ?_⟩⟩
        simpa [or_comm] using visited
      next =>
        obtain ⟨walk, last, walked, names, reason⟩ := ih failed
        exact ⟨_, last, .move (.inr chosen) walked, by simpa using names, by simpa using reason⟩
    | settle definition =>
      rw [step] at failed
      dsimp only at failed
      split at failed <;> cases failed
    | fail =>
      rw [step] at failed
      cases failed

theorem resolve_fails_iff (table : MacroTable) (name : String) (suffixes : List String) :
    (∃ cycle, table.resolve name suffixes = .error cycle) ↔
      ∀ result, ¬ Finds table [] ⟨name, suffixes⟩ longestChain result := by
  have found := follow_ok_iff table longestChain name [] suffixes 0
  unfold resolve
  cases outcome : table.follow name [] suffixes 0 longestChain with
  | error cycle =>
    constructor
    · intro _ result finds
      obtain ⟨_, done, _⟩ := (found result).mpr finds
      cases outcome.symm.trans done
    · intro _
      exact ⟨cycle, rfl⟩
  | ok reached =>
    constructor
    · intro failing
      obtain ⟨_, failed⟩ := failing
      cases failed
    · intro never
      exact absurd ((found _).mp ⟨reached, outcome, rfl⟩) (never _)

namespace Walk

theorem complete_unique {start first second : Waypoint} {walk other : List Waypoint}
    (one : Walk table start walk first) (two : Walk table start other second) (here : Stuck table first)
    (there : Stuck table second) : walk = other := by
  induction one generalizing other with
  | stay => exact (two.of_stuck here).1.symm
  | move moved _ ih =>
    obtain ⟨rest, rfl, later⟩ := two.of_moves moved there
    rw [ih later here]

theorem from_member {start stop middle : Waypoint} {walk : List Waypoint} (walked : Walk table start walk stop)
    (member : middle ∈ walk) : ∃ rest, Walk table middle rest stop ∧ rest <:+ walk := by
  induction walked with
  | stay =>
    cases List.mem_singleton.mp member
    exact ⟨_, .stay, List.suffix_rfl⟩
  | move moved later ih =>
    rcases List.mem_cons.mp member with rfl | member
    · exact ⟨_, .move moved later, List.suffix_rfl⟩
    · obtain ⟨rest, walked, last⟩ := ih member
      exact ⟨rest, walked, last.trans (List.suffix_cons _ _)⟩

theorem without_suffixes {start last : Waypoint} {walk : List Waypoint} (walked : Walk table start walk last)
    (bare : start.pending = []) :
    (∀ middle ∈ walk, middle.pending = []) ∧ last.pending = [] ∧
      (table.contains start.name → table.contains last.name) := by
  induction walked with
  | stay => exact ⟨by simpa using bare, bare, id⟩
  | move moved later ih =>
    rcases moved with extended | ⟨_, _, _, known⟩
    · cases extended
      cases bare
    · obtain ⟨all, done, defined⟩ := ih bare
      exact ⟨by simpa [bare] using all, done, fun _ => defined known⟩

/-- Without suffixes a walk that ends meets no name twice, because the way on from a name is always the
same. -/
theorem nodup_names {start stop : Waypoint} {walk : List Waypoint} (walked : Walk table start walk stop)
    (stuck : Stuck table stop) (bare : start.pending = []) : (walk.map Waypoint.name).Nodup := by
  induction walked with
  | stay => simp
  | @move start next stop rest moved later ih =>
    have onward := (Walk.move moved later).without_suffixes bare
    have nextBare := onward.1 next (by
      obtain ⟨others, rfl⟩ := later.exists_cons
      simp)
    rw [List.map_cons, List.nodup_cons]
    refine ⟨?_, ih stuck nextBare⟩
    intro member
    obtain ⟨middle, inside, same⟩ := List.mem_map.mp member
    have again : middle = start :=
      Waypoint.ext same ((onward.1 middle (List.mem_cons_of_mem _ inside)).trans bare.symm)
    obtain ⟨loop, walked, last⟩ := later.from_member inside
    have equal := (Walk.move moved later).complete_unique (again ▸ walked) stuck stuck
    have short := last.length_le
    rw [← equal, List.length_cons] at short
    omega

end Walk

theorem noReturn_of_nodup {seen : List String} {walk : List Waypoint} (distinct : (walk.map Waypoint.name).Nodup)
    (away : ∀ middle ∈ walk, middle.name ∉ seen) : NoReturn table seen walk := by
  induction walk generalizing seen with
  | nil => trivial
  | cons here rest ih =>
    cases rest with
    | nil => trivial
    | cons there others =>
      rw [List.map_cons, List.nodup_cons] at distinct
      have fresh : ∀ middle ∈ there :: others, middle.name ∉ here.name :: seen := by
        intro middle member
        rw [List.mem_cons, not_or]
        refine ⟨fun same => distinct.1 (same ▸ List.mem_map_of_mem member), ?_⟩
        exact away middle (List.mem_cons_of_mem _ member)
      exact ⟨fun _ => fresh there List.mem_cons_self, ih distinct.2 fresh⟩

theorem found_eq_none {stop : Waypoint} :
    table.found stop = none ↔ ¬ table.contains stop.name ∨ stop.pending ≠ [] := by
  unfold found contains
  cases stop.pending <;> simp

theorem found_eq_some {stop : Waypoint} {name : String} {definition : Definition} :
    table.found stop = some (name, definition) ↔ stop = ⟨name, []⟩ ∧ table.get? name = some definition := by
  obtain ⟨last, pending⟩ := stop
  unfold found
  cases pending <;> simp +contextual [and_comm]

theorem resolve_none_iff (table : MacroTable) (name : String) (suffixes : List String) :
    table.resolve name suffixes = .ok none ↔
      ∃ walk stop, Walk table ⟨name, suffixes⟩ walk stop ∧ Stuck table stop ∧ NoReturn table [] walk ∧
        walk.length ≤ 64 ∧ (¬ table.contains stop.name ∨ stop.pending ≠ []) := by
  have finds := follow_ok_iff table longestChain name [] suffixes 0 none
  simp only [Option.map_eq_none_iff, exists_eq_right, Finds, found_eq_none] at finds
  exact finds

theorem resolve_some_iff (table : MacroTable) (name : String) (suffixes : List String) (last : String)
    (definition : Definition) :
    (∃ parameters, table.resolve name suffixes = .ok (some ⟨last, definition, parameters⟩)) ↔
      ∃ walk, Walk table ⟨name, suffixes⟩ walk ⟨last, []⟩ ∧ Stuck table ⟨last, []⟩ ∧ NoReturn table [] walk ∧
        walk.length ≤ 64 ∧ table.get? last = some definition := by
  have finds := follow_ok_iff table longestChain name [] suffixes 0 (some (last, definition))
  constructor
  · intro resolved
    obtain ⟨parameters, done⟩ := resolved
    obtain ⟨walk, stop, walked, stuck, away, short, result⟩ := finds.mp ⟨_, done, rfl⟩
    obtain ⟨rfl, defined⟩ := found_eq_some.mp result
    exact ⟨walk, walked, stuck, away, short, defined⟩
  · intro ended
    obtain ⟨walk, walked, stuck, away, short, defined⟩ := ended
    obtain ⟨reached, done, same⟩ :=
      finds.mpr ⟨walk, _, walked, stuck, away, short, found_eq_some.mpr ⟨rfl, defined⟩⟩
    obtain ⟨destination, rfl, same⟩ := Option.map_eq_some_iff.mp same
    cases same
    exact ⟨destination.parameters, done⟩

theorem resolve_nil_none_iff (table : MacroTable) (name : String) :
    table.resolve name [] = .ok none ↔ ¬ table.contains name := by
  rw [resolve_none_iff]
  constructor
  · intro ended defined
    obtain ⟨walk, stop, walked, _, _, _, nothing⟩ := ended
    obtain ⟨_, consumed, lasting⟩ := walked.without_suffixes rfl
    rcases nothing with missing | pending
    · exact missing (lasting defined)
    · exact pending consumed
  · intro missing
    have stuck : Stuck table ⟨name, []⟩ := by
      intro there moved
      rcases moved with extended | ⟨_, defined, _, _⟩
      · cases extended
      · exact missing (Option.isSome_of_eq_some defined)
    exact ⟨[⟨name, []⟩], _, .stay, stuck, trivial, by simp, .inl missing⟩

/-- Without suffixes a walk fails exactly if it starts at a defined name and does not end in time. -/
theorem resolve_nil_fails_iff (table : MacroTable) (name : String) :
    (∃ cycle, table.resolve name [] = .error cycle) ↔
      table.contains name ∧
        ¬ ∃ walk stop, Walk table ⟨name, []⟩ walk stop ∧ Stuck table stop ∧ walk.length ≤ 64 := by
  constructor
  · intro failing
    obtain ⟨cycle, failed⟩ := failing
    constructor
    · by_contra missing
      rw [(resolve_nil_none_iff table name).mpr missing] at failed
      cases failed
    · intro ended
      obtain ⟨walk, stop, walked, stuck, short⟩ := ended
      have distinct := walked.nodup_names stuck rfl
      exact (resolve_fails_iff table name []).mp ⟨cycle, failed⟩ _
        ⟨walk, stop, walked, stuck, noReturn_of_nodup distinct (by simp), short, rfl⟩
  · intro unending
    rw [resolve_fails_iff]
    intro result finds
    obtain ⟨walk, stop, walked, stuck, _, short, _⟩ := finds
    exact unending.2 ⟨walk, stop, walked, stuck, short⟩

/-- Resolving a name is the greedy walk from it. There is a destination, or none, exactly if the walk ends
within 64 names and no redirection has led back; else the names of the chain are those of the walk up to
the 65th, or up to the first that a redirection has led back to. -/
theorem resolve_walks_greedily (table : MacroTable) (name : String) (suffixes : List String) :
    (∀ last definition,
      (∃ parameters, table.resolve name suffixes = .ok (some ⟨last, definition, parameters⟩)) ↔
        ∃ walk, Walk table ⟨name, suffixes⟩ walk ⟨last, []⟩ ∧ Stuck table ⟨last, []⟩ ∧ NoReturn table [] walk ∧
          walk.length ≤ 64 ∧ table.get? last = some definition) ∧
    (table.resolve name suffixes = .ok none ↔
      ∃ walk stop, Walk table ⟨name, suffixes⟩ walk stop ∧ Stuck table stop ∧ NoReturn table [] walk ∧
        walk.length ≤ 64 ∧ (¬ table.contains stop.name ∨ stop.pending ≠ [])) ∧
    (∀ cycle, table.resolve name suffixes = .error cycle →
      ∃ walk last, Walk table ⟨name, suffixes⟩ walk last ∧ cycle.chain = walk.map Waypoint.name ∧
        (cycle.chain.length = 65 ∨ ∃ earlier, cycle.chain = earlier ++ [last.name] ∧ last.name ∈ earlier)) ∧
    (table.resolve name [] = .ok none ↔ ¬ table.contains name) ∧
    ((∃ cycle, table.resolve name [] = .error cycle) ↔
      table.contains name ∧
        ¬ ∃ walk stop, Walk table ⟨name, []⟩ walk stop ∧ Stuck table stop ∧ walk.length ≤ 64) := by
  refine ⟨resolve_some_iff table name suffixes, resolve_none_iff table name suffixes, ?_,
    resolve_nil_none_iff table name, resolve_nil_fails_iff table name⟩
  intro cycle failed
  obtain ⟨walk, last, walked, names, reason⟩ := follow_error failed
  rw [List.reverse_nil, List.nil_append] at names
  refine ⟨walk, last, walked, names, reason.imp_left fun long => ?_⟩
  rw [names, List.length_map, long, longestChain]

end RegisterCatalog.MacroTable
