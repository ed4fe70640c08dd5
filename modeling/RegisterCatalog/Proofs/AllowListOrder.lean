import RegisterCatalog.Proofs.NaturalOrder
import RegisterCatalog.Proofs.ScriptNames

/-! Which allow lists are accepted. A word is only compared with the one before it, over lines that have none; since the
natural order is a total order, all words increase then. Where a list is refused, the first line that breaks
the rules is to blame. -/

namespace RegisterCatalog.AllowList
open Outcome Std

/-- The word before some lines, or the last one on them. -/
def latest? (previous? : Option String) (lines : List SourceLine) : Option String :=
  ((lines.flatMap SourceLine.words).getLast?).or previous?

/-- A line has a second word, or its word does not stand after the word before it. -/
def Faulty (previous? : Option String) (words : List String) : Prop :=
  1 < words.length ∨ ∃ word previous, words = [word] ∧ previous? = some previous ∧ Text.naturalCompare previous word ≠ .lt

/-- What is wrong with the words of a line. -/
inductive FaultOn (previous? : Option String) : List String → Fault → Prop
  | second (word extra : String) (later : List String) :
    FaultOn previous? (word :: extra :: later) (.malformedArgument "allow-list" extra)
  | repeated {word : String} : previous? = some word → FaultOn previous? [word] (.duplicateName word)
  | backwards {previous word : String} : previous? = some previous → Text.naturalCompare word previous = .lt →
    FaultOn previous? [word] (.outOfOrder previous word)

def FirstFault (previous? : Option String) (lines : List SourceLine) (fault : LineFault) : Prop :=
  ∃ before after, lines = before ++ fault.line :: after ∧
    FaultOn (latest? previous? before) fault.line.words fault.fault ∧
    ∀ earlier line others, before = earlier ++ line :: others → ¬ Faulty (latest? previous? earlier) line.words

variable {previous? : Option String} {line : SourceLine} {lines : List SourceLine} {words : List String} {fault : Fault}

theorem FaultOn.faulty (wrong : FaultOn previous? words fault) : Faulty previous? words := by
  cases wrong with
  | second word extra later => exact .inl (by simp)
  | @repeated word same =>
    have equal : Text.naturalCompare word word = .eq := ReflCmp.compare_self
    exact .inr ⟨word, word, rfl, same, by simp [equal]⟩
  | backwards same less => exact .inr ⟨_, _, rfl, same, by simp [OrientedCmp.gt_iff_lt.mpr less]⟩

/-- A word that stands after the one before it, if there is one. -/
def After (previous? : Option String) (word : String) : Prop :=
  ∀ previous ∈ previous?, Text.naturalCompare previous word = .lt

theorem after_of_checkOrder {word : String} (done : checkOrder previous? word = .ok ()) : After previous? word := by
  rintro previous rfl
  cases compared : Text.naturalCompare word previous with
  | gt => exact OrientedCmp.gt_iff_lt.mp compared
  | eq | lt => simp [checkOrder, compared] at done

theorem faultOn_of_checkOrder {word : String} (failed : checkOrder previous? word = .error fault) :
    FaultOn previous? [word] fault := by
  cases previous? with
  | none => cases failed
  | some previous =>
    cases compared : Text.naturalCompare word previous with
    | gt => simp [checkOrder, compared] at failed
    | eq =>
      simp only [checkOrder, compared] at failed
      cases failed
      exact .repeated (congrArg some (LawfulEqCmp.eq_of_compare compared).symm)
    | lt =>
      simp only [checkOrder, compared] at failed
      cases failed
      exact .backwards rfl compared

theorem faultOn_of_readLine (failed : readLine previous? line.text = .error fault) : FaultOn previous? line.words fault := by
  unfold readLine at failed
  unfold SourceLine.words
  split at failed
  · cases failed
  next word extra others two =>
    cases failed
    exact two ▸ .second word extra others
  next word single =>
    rcases bind_eq_error.mp failed with wrong | ⟨_, _, later⟩
    · exact single ▸ faultOn_of_checkOrder wrong
    · cases later

theorem after_of_readLine {word : String} (done : readLine previous? line.text = .ok (some word)) : After previous? word := by
  unfold readLine at done
  split at done
  · cases done
  · cases done
  · obtain ⟨_, checked, done⟩ := bind_eq_ok.mp done
    cases done
    exact after_of_checkOrder checked

theorem latest?_cons (previous? : Option String) (line : SourceLine) (lines : List SourceLine) :
    latest? previous? (line :: lines) = latest? (latest? previous? [line]) lines := by
  simp [latest?, Option.or_assoc]

theorem FirstFault.cons {fault : LineFault} (sound : ¬ Faulty previous? line.words)
    (first : FirstFault (latest? previous? [line]) lines fault) : FirstFault previous? (line :: lines) fault := by
  obtain ⟨before, after, rfl, wrong, least⟩ := first
  refine ⟨line :: before, after, rfl, by rwa [latest?_cons], ?_⟩
  intro earlier other others same
  cases earlier with
  | nil =>
    obtain ⟨rfl, _⟩ := List.cons.inj same
    exact sound
  | cons head earlier =>
    obtain ⟨rfl, rest⟩ := List.cons.inj same
    rw [latest?_cons]
    exact least earlier other others rest

theorem not_faulty_of_readLine {word? : Option String} (done : readLine previous? line.text = .ok word?) :
    ¬ Faulty previous? line.words := by
  rintro (two | ⟨word, previous, single, before, disorder⟩)
  · rw [readLine_eq_ok done] at two
    cases word? <;> simp at two
  · rw [readLine_eq_ok done, Option.toList_eq_singleton_iff] at single
    rw [single] at done
    exact disorder (after_of_readLine done previous before)

theorem latest?_of_readLine {word? : Option String} (done : readLine previous? line.text = .ok word?) :
    latest? previous? [line] = word?.or previous? := by
  cases word? <;> simp [latest?, readLine_eq_ok done]

theorem firstFault_of_readWords {fault : LineFault} (failed : readWords previous? lines = .error fault) :
    FirstFault previous? lines fault := by
  induction lines generalizing previous? with
  | nil => cases failed
  | cons line rest ih =>
    cases here : readLine previous? line.text with
    | error wrong =>
      rw [readWords, here] at failed
      cases failed
      exact ⟨[], rest, rfl, faultOn_of_readLine here, by simp⟩
    | ok word? =>
      refine .cons (not_faulty_of_readLine here) (ih ?_)
      rw [readWords, here] at failed
      rw [latest?_of_readLine here]
      cases word? with
      | none => exact failed
      | some word =>
        have failed : (readWords (some word) rest >>= fun others => pure (word :: others)) = .error fault := failed
        rcases bind_eq_error.mp failed with wrong | ⟨_, _, later⟩
        · exact wrong
        · cases later

/-- The words of accepted lines stand in order, behind the word before them. -/
theorem ordered_of_readWords (done : readWords previous? lines = .ok words) :
    (∀ line ∈ lines, line.words.length ≤ 1) ∧
      (previous?.toList ++ words).IsChain fun one two => Text.naturalCompare one two = .lt := by
  induction lines generalizing previous? words with
  | nil =>
    cases done
    cases previous? <;> simp
  | cons line rest ih =>
    obtain ⟨word?, here, done⟩ := bind_eq_ok.mp done
    have here := mapError_eq_ok here
    rw [List.forall_mem_cons, readLine_eq_ok here]
    cases word? with
    | none =>
      obtain ⟨short, chain⟩ := ih done
      exact ⟨⟨by simp, short⟩, chain⟩
    | some word =>
      obtain ⟨others, later, done⟩ := bind_eq_ok.mp done
      cases done
      obtain ⟨short, chain⟩ := ih later
      refine ⟨⟨by simp, short⟩, ?_⟩
      have after := after_of_readLine here
      cases previous? with
      | none => exact chain
      | some previous => exact List.isChain_cons_cons.mpr ⟨after previous rfl, chain⟩

instance : Trans (fun one two => Text.naturalCompare one two = .lt) (fun one two => Text.naturalCompare one two = .lt)
    (fun one two => Text.naturalCompare one two = .lt) where
  trans := TransCmp.lt_trans

/-- The words of a list, line by line. -/
def wordsOf (text : String) : List String := (sourceLines text).flatMap SourceLine.words

/-- A word selects the symbol that it is, or those that start as it does if it ends with `*`. -/
def Selects (word symbol : String) : Prop :=
  (¬ ∃ start, word = start ++ "*") ∧ symbol = word ∨ ∃ start rest, word = start ++ "*" ∧ symbol = start ++ rest

theorem allows_ofWord_iff_selects (word symbol : String) : (AllowPattern.ofWord word).allows symbol ↔ Selects word symbol := by
  rw [allows_ofWord, Admits, Selects]
  constructor
  · rintro (rfl | starred)
    · by_cases ends : ∃ start, word = start ++ "*"
      · obtain ⟨start, whole⟩ := ends
        exact .inr ⟨start, "*", whole, whole⟩
      · exact .inl ⟨ends, rfl⟩
    · exact .inr starred
  · rintro (⟨_, rfl⟩ | starred)
    · exact .inl rfl
    · exact .inr starred

instance (word symbol : String) : Decidable (Selects word symbol) :=
  decidable_of_iff _ (allows_ofWord_iff_selects word symbol)

theorem word_ofWord (word : String) : (AllowPattern.ofWord word).word = word := by
  unfold AllowPattern.ofWord
  split
  next start cut => exact (Text.dropEnd?_eq_some cut).symm
  next => rfl

theorem read_eq_ok {text : String} {list : AllowList} (accepted : read text = .ok list) :
    readWords none (sourceLines text) = .ok (wordsOf text) ∧ list.patterns = (wordsOf text).map AllowPattern.ofWord := by
  obtain ⟨words, found, done⟩ := bind_eq_ok.mp accepted
  cases done
  rw [wordsOf, ← readWords_eq_ok found]
  exact ⟨found, rfl⟩

theorem firstFault_of_read {text : String} {fault : LineFault} (refused : read text = .error fault) :
    FirstFault none (sourceLines text) fault := by
  rcases bind_eq_error.mp refused with failed | ⟨_, _, later⟩
  · exact firstFault_of_readWords failed
  · cases later

theorem FirstFault.not_ordered {fault : LineFault} (first : FirstFault none lines fault)
    (short : ∀ line ∈ lines, line.words.length ≤ 1) :
    ¬ (lines.flatMap SourceLine.words).Pairwise fun one two => Text.naturalCompare one two = .lt := by
  obtain ⟨before, after, rfl, wrong, _⟩ := first
  intro ordered
  rcases wrong.faulty with two | ⟨word, previous, single, latest, disorder⟩
  · exact absurd (short fault.line (by simp)) (by omega)
  · have member : previous ∈ before.flatMap SourceLine.words :=
      List.mem_of_getLast? (by simpa [latest?] using latest)
    rw [List.flatMap_append, List.flatMap_cons, single] at ordered
    exact disorder ((List.pairwise_append.mp ordered).2.2 previous member word (by simp))

theorem getElem?_lines {text : String} {before after : List SourceLine} {line : SourceLine}
    (split : sourceLines text = before ++ line :: after) :
    line.number = before.length + 1 ∧ (Text.lines text)[before.length]? = some line.text := by
  have found : (sourceLines text)[before.length]? = some line := by simp [split]
  rw [sourceLines, List.getElem?_map, List.getElem?_zipIdx, Option.map_map, Option.map_eq_some_iff] at found
  obtain ⟨written, known, rfl⟩ := found
  exact ⟨Nat.add_comm 1 before.length, known⟩

/-- An allow list is accepted exactly if every line has a word at most and all words increase. Else the first line with
a second word, or with a word that does not stand after the last one before it, is reported as it is written. An
accepted list admits what its words select, and its idle words are those that select no symbol. -/
theorem accepted_iff_increasing (text : String) :
    ((∃ list, read text = .ok list) ↔ (∀ line ∈ sourceLines text, line.words.length ≤ 1) ∧
      (wordsOf text).Pairwise fun one two => Text.naturalCompare one two = .lt) ∧
    (∀ fault, read text = .error fault → ∃ before after, sourceLines text = before ++ fault.line :: after ∧
      fault.line.number = before.length + 1 ∧ (Text.lines text)[before.length]? = some fault.line.text ∧
      FaultOn (before.flatMap SourceLine.words).getLast? fault.line.words fault.fault ∧
      ∀ earlier line others, before = earlier ++ line :: others →
        ¬ Faulty (earlier.flatMap SourceLine.words).getLast? line.words) ∧
    ∀ list, read text = .ok list →
      (∀ symbol, list.allows symbol ↔ ∃ word ∈ wordsOf text, Selects word symbol) ∧
      ∀ catalog : Catalog, list.unmatched catalog =
        (wordsOf text).filter fun word => ¬ ∃ entry ∈ catalog.toList, Selects word entry.symbol := by
  refine ⟨⟨?_, ?_⟩, ?_, ?_⟩
  · rintro ⟨list, accepted⟩
    obtain ⟨short, chain⟩ := ordered_of_readWords (read_eq_ok accepted).1
    exact ⟨short, List.isChain_iff_pairwise.mp chain⟩
  · rintro ⟨short, ordered⟩
    cases ran : read text with
    | ok list => exact ⟨list, rfl⟩
    | error fault => exact absurd ordered ((firstFault_of_read ran).not_ordered short)
  · intro fault refused
    obtain ⟨before, after, split, wrong, least⟩ := firstFault_of_read refused
    obtain ⟨number, written⟩ := getElem?_lines split
    simp only [latest?, Option.or_none] at wrong least
    exact ⟨before, after, split, number, written, wrong, least⟩
  · intro list accepted
    obtain ⟨_, patterns⟩ := read_eq_ok accepted
    constructor
    · intro symbol
      rw [allows, patterns, List.any_map, List.any_eq_true]
      simp only [Function.comp_apply, allows_ofWord_iff_selects]
    · intro catalog
      have spelled : AllowPattern.word ∘ AllowPattern.ofWord = id := funext word_ofWord
      rw [unmatched, patterns, List.filter_map, List.map_map, spelled, List.map_id]
      apply List.filter_congr
      intro word _
      have same : (catalog.toList.any fun entry => (AllowPattern.ofWord word).allows entry.symbol) =
          decide (∃ entry ∈ catalog.toList, Selects word entry.symbol) := by
        rw [Bool.eq_iff_iff, List.any_eq_true, decide_eq_true_iff]
        simp only [allows_ofWord_iff_selects]
      rw [Function.comp_apply, same, decide_not]

theorem accepted_iff_increasing_numbered :
    (read "LWHAL_A9 # nine\n\nLWHAL_A10\nLWHAL_A2\nLWHAL_B extra\n" =
        .error ⟨⟨4, "LWHAL_A2"⟩, .outOfOrder "LWHAL_A10" "LWHAL_A2"⟩ ∧
      ∃ before after, sourceLines "LWHAL_A9 # nine\n\nLWHAL_A10\nLWHAL_A2\nLWHAL_B extra\n" =
          before ++ ⟨4, "LWHAL_A2"⟩ :: after ∧
        FaultOn (before.flatMap SourceLine.words).getLast? ["LWHAL_A2"] (.outOfOrder "LWHAL_A10" "LWHAL_A2")) ∧
    ∃ list, read "LWHAL_A9\n\nLWHAL_A10*\n" = .ok list ∧
      (wordsOf "LWHAL_A9\n\nLWHAL_A10*\n").Pairwise (fun one two => Text.naturalCompare one two = .lt) ∧
      (list.allows "LWHAL_A10_B" ↔ ∃ word ∈ wordsOf "LWHAL_A9\n\nLWHAL_A10*\n", Selects word "LWHAL_A10_B") := by
  have refused : read "LWHAL_A9 # nine\n\nLWHAL_A10\nLWHAL_A2\nLWHAL_B extra\n" =
      .error ⟨⟨4, "LWHAL_A2"⟩, .outOfOrder "LWHAL_A10" "LWHAL_A2"⟩ := by
    decide +kernel
  have single : SourceLine.words ⟨4, "LWHAL_A2"⟩ = ["LWHAL_A2"] := by decide +kernel
  have accepted : read "LWHAL_A9\n\nLWHAL_A10*\n" = .ok ⟨[.exactly "LWHAL_A9", .startingWith "LWHAL_A10"]⟩ := by
    decide +kernel
  obtain ⟨before, after, split, _, _, wrong, _⟩ := (accepted_iff_increasing _).2.1 _ refused
  obtain ⟨iff, _, selected⟩ := accepted_iff_increasing "LWHAL_A9\n\nLWHAL_A10*\n"
  exact ⟨⟨refused, before, after, split, single ▸ wrong⟩, _, accepted, (iff.mp ⟨_, accepted⟩).2, (selected _ accepted).1 _⟩

end RegisterCatalog.AllowList
