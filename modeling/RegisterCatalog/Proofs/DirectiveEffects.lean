import RegisterCatalog.Catalog.Declaration
import RegisterCatalog.Proofs.Outcome

/-! What directives do to an entry. A directive is accepted by its level, its words and the attributes that the
entry has got before; once accepted, it changes the one aspect of the entry that it is about. Only a domain
reaches further, into the hardware names that are there already. -/

namespace RegisterCatalog
open Outcome

/-- What of an entry a directive is about. -/
inductive Directive.Aspect
  | dimensions
  | deviceRules
  | domain
  | virtualImage
  | synonyms
  | capability
  deriving DecidableEq

namespace Directive

def aspect : Directive → Aspect
  | arrayLimit _ | replaceArray .. | replaceStride .. => .dimensions
  | replaceString .. => .deviceRules
  | domain _ => .domain
  | virtualImage _ | virtualExport => .virtualImage
  | synonym _ => .synonyms
  | capability _ => .capability

/-- Whether the words of a directive start as the settings want it, for an entry of this name. -/
def fits (settings : Settings) (name : String) : Directive → Bool
  | virtualImage target =>
    !Text.startsWith settings.virtualPrefix name && Text.startsWith settings.virtualPrefix target
  | virtualExport => !Text.startsWith settings.virtualPrefix name
  | replaceStride _ stride _ => (Text.dropStart? settings.sourcePrefix stride).isSome
  | capability given => Text.startsWith settings.capabilityPrefix given
  | _ => true

end Directive

namespace Entry

/-- Whether the entry has got what it can have only once. -/
def taken (entry : Entry) : Directive.Aspect → Bool
  | .domain => entry.domain?.isSome
  | .virtualImage => entry.virtualImage?.isSome
  | .capability => entry.capability?.isSome
  | _ => false

/-- The entry after an accepted directive. -/
def revise (settings : Settings) (entry : Entry) : Directive → Entry
  | .arrayLimit limit => entry.addDimension limit .argument
  | .domain name => { entry with
      domain? := some name
      hardwareNames := entry.hardwareNames.map fun known => { known with domain := name } }
  | .virtualImage target => { entry with virtualImage? := some ⟨entry.name, target⟩ }
  | .virtualExport => { entry with virtualImage? := some ⟨settings.sourcePrefix, settings.virtualPrefix⟩ }
  | .replaceArray old new limit => entry.addDimension limit (.substitute old new)
  | .replaceStride old stride limit =>
    entry.addDimension limit (.stride old (settings.symbolPrefix ++ (Text.dropStart? settings.sourcePrefix stride).getD ""))
  | .replaceString old new => { entry with deviceRules := entry.deviceRules ++ [⟨old, new⟩] }
  | .synonym name => entry.addSynonym name
  | .capability name => { entry with capability? := some name }

def namesWith (entry : Entry) (synonym : String) : List HardwareName :=
  if entry.level = .address then entry.hardwareNames ++ [⟨synonym, entry.domain⟩]
  else
    (entry.hardwareNames.filterMap fun known =>
      (Text.dropEnd? ("_" ++ entry.name) known.name).map fun stem =>
        { known with name := stem ++ "_" ++ dropUnderscore synonym }).foldl insertName entry.hardwareNames

theorem addSynonym_eq (entry : Entry) (synonym : String) :
    entry.addSynonym synonym = { entry with hardwareNames := entry.namesWith synonym } := by
  unfold addSynonym namesWith
  split <;> rfl

variable {settings : Settings} {before after : Entry} {directive : Directive}

private theorem checkVirtual_eq_ok {entry : Entry} {done : Unit} : checkVirtual settings entry = .ok done ↔
    entry.taken .virtualImage = false ∧ Text.startsWith settings.virtualPrefix entry.name = false := by
  unfold checkVirtual taken
  split
  · simp [*]
  · split <;> simp [*]

private theorem applyAllowed_eq_ok : applyAllowed settings before directive = .ok after ↔
    before.taken directive.aspect = false ∧ directive.fits settings before.name ∧
      before.revise settings directive = after := by
  cases directive with
  | arrayLimit limit | replaceArray old new limit | replaceString old new | synonym name =>
    simp [applyAllowed, taken, Directive.aspect, Directive.fits, revise]
  | domain name =>
    cases given : before.domain? <;> simp [applyAllowed, taken, Directive.aspect, Directive.fits, revise, given]
  | virtualImage target =>
    cases start : Text.startsWith settings.virtualPrefix target <;>
      simp [applyAllowed, bind_eq_ok, checkVirtual_eq_ok, Directive.aspect, Directive.fits, revise, start, pure, Except.pure,
        and_assoc]
  | virtualExport =>
    simp [applyAllowed, bind_eq_ok, checkVirtual_eq_ok, Directive.aspect, Directive.fits, revise, pure, Except.pure, and_assoc]
  | replaceStride old stride limit =>
    cases cut : Text.dropStart? settings.sourcePrefix stride <;>
      simp [applyAllowed, taken, Directive.aspect, Directive.fits, revise, cut]
  | capability name =>
    cases given : before.capability? <;> cases start : Text.startsWith settings.capabilityPrefix name <;>
      simp [applyAllowed, taken, Directive.aspect, Directive.fits, revise, given, start]

structure Accepts (settings : Settings) (entry : Entry) (directive : Directive) : Prop where
  allowed : directive.allowedOn entry.level
  free : entry.taken directive.aspect = false
  fits : directive.fits settings entry.name

theorem apply_eq_ok : apply settings before directive = .ok after ↔
    before.Accepts settings directive ∧ before.revise settings directive = after := by
  unfold apply
  split
  next allowed =>
    rw [applyAllowed_eq_ok]
    constructor
    · rintro ⟨free, fits, done⟩
      exact ⟨⟨allowed, free, fits⟩, done⟩
    · rintro ⟨accepted, done⟩
      exact ⟨accepted.free, accepted.fits, done⟩
  next refused =>
    constructor
    · intro done
      cases done
    · rintro ⟨accepted, _⟩
      exact absurd accepted.allowed refused

end Entry
end RegisterCatalog
