import RegisterCatalog.Level

/-! What can be wrong with a line of a catalog or of an allow list. -/

namespace RegisterCatalog

/-- What an entry has at most once. -/
inductive Attribute
  | domain
  | virtualImage
  | capability
  deriving DecidableEq

def Attribute.name : Attribute → String
  | .domain => "domain"
  | .virtualImage => "virtual mirror"
  | .capability => "capability"

inductive Fault
  | tabCharacter
  | badIndent
  | tooDeep
  | duplicateName (name : String)
  | outOfOrder (previous name : String)
  | missingSourcePrefix (required : String)
  | invalidDirective (directive : String)
  | missingArgument (directive : String)
  | malformedArgument (directive argument : String)
  | alreadySet (trait : Attribute)
  | alreadyVirtual
  | badVirtualPrefix (name required : String)
  | badCapabilityPrefix (name required : String)
  | badArrayLimit (word : String)
  | unresolvedSubstitution (part : String)
  | duplicateSymbol (symbol : String)
  | sequenceOverflow (level : Level) (limit : Nat)
  deriving DecidableEq

def Fault.message : Fault → String
  | tabCharacter => "tab characters are not allowed"
  | badIndent => "indentation does not match any enclosing level"
  | tooDeep => "nesting deeper than address/field/value"
  | duplicateName name => s!"duplicate name `{name}`"
  | outOfOrder previous name => s!"`{name}` must sort after `{previous}`"
  | missingSourcePrefix required => s!"address name must start with `{required}`"
  | invalidDirective directive => s!"invalid directive `{directive}` at this level"
  | missingArgument directive => s!"directive `{directive}` expects an argument"
  | malformedArgument directive argument =>
    s!"malformed argument `{argument}` to `{directive}`"
  | alreadySet trait => s!"`{trait.name}` is already set"
  | alreadyVirtual => "entry already denotes a virtual register"
  | badVirtualPrefix name required => s!"virtual mirror `{name}` must start with `{required}`"
  | badCapabilityPrefix name required => s!"capability `{name}` must start with `{required}`"
  | badArrayLimit word => s!"array limit must be a positive integer, got `{word}`"
  | unresolvedSubstitution part => s!"`{part}` does not occur in any candidate name"
  | duplicateSymbol symbol => s!"public symbol `{symbol}` is defined twice"
  | sequenceOverflow level limit => s!"more than {limit} {level.name} entries under one parent"

/-- A line of an input text. Lines are numbered from one. -/
structure SourceLine where
  number : Nat
  text : String
  deriving DecidableEq

/-- A fault with the line it is on. -/
structure LineFault where
  line : SourceLine
  fault : Fault
  deriving DecidableEq

def LineFault.message (located : LineFault) : String :=
  s!"line {located.line.number}: {located.fault.message}\n    {located.line.text}"

end RegisterCatalog
