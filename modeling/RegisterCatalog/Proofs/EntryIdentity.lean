import RegisterCatalog.Proofs.DirectiveEffects

/-! What a line fixes about its entry. The first word decides who the entry is and where it stands;
directives only change how it is found in the headers. -/

namespace RegisterCatalog.Entry
open Outcome

/-- The two entries are one and the same, with other names, dimensions or rules. -/
structure Keeps (before after : Entry) : Prop where
  name : after.name = before.name
  level : after.level = before.level
  symbol : after.symbol = before.symbol
  position : after.position = before.position
  id : after.id = before.id
  parent : after.parent? = before.parent?
  line : after.line = before.line

theorem Keeps.refl (entry : Entry) : Keeps entry entry := ⟨rfl, rfl, rfl, rfl, rfl, rfl, rfl⟩

theorem Keeps.trans {first second third : Entry} (one : Keeps first second) (two : Keeps second third) :
    Keeps first third :=
  ⟨two.name.trans one.name, two.level.trans one.level, two.symbol.trans one.symbol,
    two.position.trans one.position, two.id.trans one.id, two.parent.trans one.parent,
    two.line.trans one.line⟩

theorem revise_keeps (settings : Settings) (entry : Entry) (directive : Directive) :
    Keeps entry (entry.revise settings directive) := by
  cases directive with
  | synonym name =>
    rw [revise, addSynonym_eq]
    exact ⟨rfl, rfl, rfl, rfl, rfl, rfl, rfl⟩
  | _ => exact ⟨rfl, rfl, rfl, rfl, rfl, rfl, rfl⟩

theorem apply_keeps {settings : Settings} {before after : Entry} {directive : Directive}
    (done : apply settings before directive = .ok after) : Keeps before after := by
  obtain ⟨_, rfl⟩ := apply_eq_ok.mp done
  exact revise_keeps settings before directive

/-- A line declares an entry, and whatever its directives do, they keep it. -/
theorem ofWords_eq_ok {settings : Settings} {layout : Layout} {line : Nat} {level : Level} {above? : Option Above}
    {previous? : Option Entry} {word : String} {rest : List String} {entry : Entry}
    (done : ofWords settings layout line level above? previous? word rest = .ok entry) :
    ∃ declared, declare settings layout line level above? previous? word = .ok declared ∧ Keeps declared entry := by
  obtain ⟨declared, first, done⟩ := bind_eq_ok.mp done
  obtain ⟨directives, _, done⟩ := bind_eq_ok.mp done
  refine ⟨declared, first, ?_⟩
  exact foldlM_invariant (Keeps declared) (fun _ _ _ kept applied => kept.trans (apply_keeps applied))
    (Keeps.refl declared) done

/-- The number of a new entry is one more than that of the sibling before it, and within the limit. -/
theorem numberAfter_eq_ok {limits : Limits} {level : Level} {previous? : Option Entry} {number : Nat}
    (done : numberAfter limits level previous? = .ok number) :
    number = (previous?.elim 0 Entry.number) + 1 ∧ number ≤ limits.on level := by
  unfold numberAfter at done
  cases previous? <;> dsimp only at done <;> split at done <;> cases done <;>
    exact ⟨by simp, by omega⟩

/-- Where a declared entry stands: below `above?`, right after `previous?`. -/
structure Stands (settings : Settings) (layout : Layout) (level : Level) (above? : Option Above)
    (previous? : Option Entry) (entry : Entry) : Prop where
  parent : entry.parent? = above?.map Above.place
  position : entry.position =
    (above?.elim {} fun above => above.entry.position).below level ((previous?.elim 0 Entry.number) + 1)
  bounded : (previous?.elim 0 Entry.number) + 1 ≤ settings.limits.on level
  id : entry.id = layout.pack level entry.position
  level : entry.level = level

theorem declare_stands {settings : Settings} {layout : Layout} {line : Nat} {level : Level} {above? : Option Above}
    {previous? : Option Entry} {word : String} {entry : Entry}
    (done : declare settings layout line level above? previous? word = .ok entry) :
    Stands settings layout level above? previous? entry := by
  obtain ⟨name, _, done⟩ := bind_eq_ok.mp done
  obtain ⟨_, _, done⟩ := bind_eq_ok.mp done
  obtain ⟨number, counted, done⟩ := bind_eq_ok.mp done
  obtain ⟨rfl, bounded⟩ := numberAfter_eq_ok counted
  cases above? with
  | none =>
    dsimp only at done
    split at done <;> cases done
    exact ⟨rfl, rfl, bounded, rfl, rfl⟩
  | some above =>
    cases done
    exact ⟨rfl, rfl, bounded, rfl, rfl⟩

theorem declare_name {settings : Settings} {layout : Layout} {line : Nat} {level : Level} {above? : Option Above}
    {previous? : Option Entry} {word : String} {entry : Entry}
    (done : declare settings layout line level above? previous? word = .ok entry) :
    nameOf level word = .ok entry.name ∧ checkOrder previous? entry.name = .ok () := by
  obtain ⟨name, named, done⟩ := bind_eq_ok.mp done
  obtain ⟨_, ordered, done⟩ := bind_eq_ok.mp done
  obtain ⟨number, _, done⟩ := bind_eq_ok.mp done
  cases above? with
  | none =>
    dsimp only at done
    split at done <;> cases done
    exact ⟨named, ordered⟩
  | some above =>
    cases done
    exact ⟨named, ordered⟩

theorem ofWords_stands {settings : Settings} {layout : Layout} {line : Nat} {level : Level} {above? : Option Above}
    {previous? : Option Entry} {word : String} {rest : List String} {entry : Entry}
    (done : ofWords settings layout line level above? previous? word rest = .ok entry) :
    Stands settings layout level above? previous? entry := by
  obtain ⟨declared, first, kept⟩ := ofWords_eq_ok done
  have stands := declare_stands first
  exact ⟨kept.parent.trans stands.parent, kept.position.trans stands.position, stands.bounded,
    kept.id.trans (stands.id.trans (by rw [kept.position])), kept.level.trans stands.level⟩

end RegisterCatalog.Entry
