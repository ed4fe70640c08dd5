/-! Messages about the progress of a run. -/

namespace RegisterCatalog

inductive Severity
  | debug
  | info
  | warning
  deriving DecidableEq

def Severity.label : Severity → String
  | .debug => "DEBUG"
  | .info => "INFO"
  | .warning => "WARN"

structure LogMessage where
  severity : Severity
  text : String
  deriving DecidableEq

namespace LogMessage

def debug (text : String) : LogMessage := ⟨.debug, text⟩

def info (text : String) : LogMessage := ⟨.info, text⟩

def warning (text : String) : LogMessage := ⟨.warning, text⟩

def line (message : LogMessage) : String := s!"{message.severity.label} {message.text}"

end LogMessage
end RegisterCatalog
