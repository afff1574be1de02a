/-!
# Events

What a call says beside its answer: log entries for operators and audit events for the record.  A
call gives its events in the order in which they happen.  An audit event can also be handed on as a
log entry of its own target.
-/

namespace Bulwark

/-- The severity of a log entry. -/
inductive LogLevel where
  | debug
  | info
  | warn
  | error
  deriving DecidableEq, Repr, Inhabited

/-- The name of a severity. -/
def LogLevel.name : LogLevel → String
  | .debug => "DEBUG"
  | .info => "INFO"
  | .warn => "WARN"
  | .error => "ERROR"

/-- A log entry: a fixed message and fields by name. -/
structure LogEntry where
  level : LogLevel
  message : String
  fields : List (String × String)
  /-- The target, where it is not the default one. -/
  target : Option String
  deriving DecidableEq, Repr

/-- A log entry of the default target. -/
def LogEntry.of (level : LogLevel) (message : String) (fields : List (String × String)) :
    LogEntry :=
  ⟨level, message, fields, none⟩

/-- An entry of the audit record. -/
structure AuditEvent where
  /-- The component that reports. -/
  category : String
  operation : String
  message : String
  deriving DecidableEq, Repr

/-- The log target of audit events. -/
def auditTarget : String := "resilience_guard::audit"

/-- An audit event as a log entry. -/
def AuditEvent.toLogEntry (e : AuditEvent) : LogEntry :=
  ⟨.info, e.message, [("category", e.category), ("operation", e.operation)], some auditTarget⟩

/-- What a call reports. -/
inductive Event where
  | log (entry : LogEntry)
  | audit (event : AuditEvent)
  deriving DecidableEq, Repr

/-- The log entries among events, audit events included if they are handed on. -/
def logEntries (auditToLog : Bool) (events : List Event) : List LogEntry :=
  events.filterMap fun
    | .log entry => some entry
    | .audit event => if auditToLog then some event.toLogEntry else none

/-- The audit events among events. -/
def auditEvents (events : List Event) : List AuditEvent :=
  events.filterMap fun
    | .log _ => none
    | .audit event => some event

theorem logEntries_append (auditToLog : Bool) (events events' : List Event) :
    logEntries auditToLog (events ++ events') =
      logEntries auditToLog events ++ logEntries auditToLog events' :=
  List.filterMap_append

theorem auditEvents_append (events events' : List Event) :
    auditEvents (events ++ events') = auditEvents events ++ auditEvents events' :=
  List.filterMap_append

/-- Log entries are no audit events. -/
@[simp]
theorem auditEvents_map_log (entries : List LogEntry) : auditEvents (entries.map .log) = [] := by
  induction entries with
  | nil => rfl
  | cons _ _ ih => exact ih

end Bulwark
