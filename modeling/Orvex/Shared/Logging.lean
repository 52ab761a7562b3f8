import Orvex.Core.Reference

/-!
# Redacted logging

Every record is redacted before it is written.  A value may refer to objects
of the heap, which may be shared or refer to themselves; the redactor goes
nine levels down and leaves a mark where it meets an object again.  What
stands under a sensitive key never shows in a line.
-/

namespace Orvex
namespace Logging

/-! ## Values -/

/-- A value of the language; an address leads to a cell of the heap. -/
inductive LogValue where
  | undefined
  | null
  | bool (b : Bool)
  /-- `none` is NaN or an infinity. -/
  | number (n : Option ℚ)
  | string (s : String)
  /-- What `String` makes of a symbol, a function or a bigint. -/
  | other (text : String)
  | ref (address : ℕ)
  deriving DecidableEq

abbrev LogEntries := List (String × LogValue)

inductive Cell where
  | array (items : List LogValue)
  | error (name message : String)
  | object (entries : LogEntries)

abbrev Heap := ℕ → Cell

/-- What is written; a number is `none` where it is written as `null`. -/
abbrev LogJson := JsonText.Value String (Option ℚ)

/-! ## Redaction -/

def redacted : String := "***REDACTED***"

def sensitiveKeyHints : List String :=
  ["password", "passwd", "secret", "token", "apikey", "api_key", "api-key",
    "authorization", "auth", "cookie", "session", "private_key",
    "privatekey", "seed", "seed_phrase", "mnemonic", "signing", "signer",
    "bearer", "credential", "database_url", "databaseurl", "redis_url",
    "redisurl"]

/-- What the redaction takes from the strings of the language. -/
structure Scrubber where
  toLowerCase : String → String
  includes : String → String → Bool
  /-- `input.replace(URL_CREDENTIAL_PATTERN, …)`. -/
  urlCredentials : String → String
  /-- `input.replace(BEARER_PATTERN, REDACTED)`. -/
  bearerTokens : String → String
  /-- `input.replace(KV_SECRET_PATTERN, …)`. -/
  keyValueSecrets : String → String

def isSensitiveKey (js : Scrubber) (key : String) : Bool :=
  sensitiveKeyHints.any (fun hint => js.includes (js.toLowerCase key) hint)

def redactString (js : Scrubber) (input : String) : String :=
  js.keyValueSecrets (js.bearerTokens (js.urlCredentials input))

/-- Goes through a list from the left with a state. -/
def threaded {α β σ : Type} (f : α → σ → β × σ) : List α → σ → List β × σ
  | [], s => ([], s)
  | a :: rest, s =>
      let (b, next) := f a s
      let (bs, last) := threaded f rest next
      (b :: bs, last)

/-- The entries of the copy, without those that are not written: an undefined
value, or one that an assignment to `__proto__` swallows. -/
def writtenEntries (entries : List (String × Option LogJson)) :
    List (String × LogJson) :=
  entries.filterMap fun (key, value) =>
    if key = "__proto__" then none else value.map fun v => (key, v)

/-- The copy of an object's entries, where `redact` copies the values. -/
def redactEntries (js : Scrubber)
    (redact : LogValue → List ℕ → Option LogJson × List ℕ) :
    LogEntries → List ℕ → List (String × Option LogJson) × List ℕ :=
  threaded fun (key, value) seen =>
    if isSensitiveKey js key then ((key, some (.string redacted)), seen)
    else
      let (copy, after) := redact value seen
      ((key, copy), after)

/-- `redactValue`, where the depth is `9 - levels`, with the objects seen
before and after; `none` is undefined. -/
def redactValue (js : Scrubber) (heap : Heap) :
    ℕ → LogValue → List ℕ → Option LogJson × List ℕ
  | _, .undefined, seen => (none, seen)
  | _, .null, seen => (some .null, seen)
  | _, .string s, seen => (some (.string (redactString js s)), seen)
  | _, .number n, seen => (some (.number n), seen)
  | _, .bool b, seen => (some (.bool b), seen)
  | 0, .other _, seen => (some (.string "[TRUNCATED]"), seen)
  | 0, .ref _, seen => (some (.string "[TRUNCATED]"), seen)
  | _ + 1, .other text, seen => (some (.string text), seen)
  | levels + 1, .ref address, seen =>
      match heap address with
      | .array items =>
          let (copies, after) := threaded (redactValue js heap levels) items
            seen
          -- an undefined item is written as null
          (some (.array (copies.map fun copy => copy.getD .null)), after)
      | .error name message =>
          (some (.object [("name", .string name),
            ("message", .string (redactString js message))]), seen)
      | .object entries =>
          if address ∈ seen then (some (.string "[CIRCULAR]"), seen)
          else
            let (copies, after) := redactEntries js
              (redactValue js heap levels) entries (address :: seen)
            (some (.object (writtenEntries copies)), after)

/-! ## The logger -/

inductive LogLevel where
  | debug | info | warn | error
  deriving DecidableEq

def LogLevel.text : LogLevel → String
  | .debug => "debug"
  | .info => "info"
  | .warn => "warn"
  | .error => "error"

/-- `LOG_LEVEL_ORDER`. -/
def LogLevel.order : LogLevel → ℕ
  | .debug => 10
  | .info => 20
  | .warn => 30
  | .error => 40

/-- Sets a field of an object in its place, or as its last one. -/
def setEntry (key : String) (value : LogValue) : LogEntries → LogEntries
  | [] => [(key, value)]
  | entry :: rest =>
      if entry.1 = key then (key, value) :: rest
      else entry :: setEntry key value rest

/-- `{ ...base, ...extra }`. -/
def spread (base extra : LogEntries) : LogEntries :=
  extra.foldl (fun record (key, value) => setEntry key value record) base

structure Logger where
  service : String
  level : LogLevel
  bound : LogEntries

def Logger.child (logger : Logger) (context : LogEntries) : Logger :=
  { logger with bound := spread logger.bound context }

def Logger.shouldLog (logger : Logger) (level : LogLevel) : Bool :=
  decide (logger.level.order ≤ level.order)

/-- One call of `debug`, `info`, `warn` or `error`. -/
structure LogCall where
  timestamp : String
  level : LogLevel
  event : String
  data : LogEntries

def Logger.record (logger : Logger) (call : LogCall) : LogEntries :=
  spread (spread
    [("timestamp", .string call.timestamp),
      ("level", .string call.level.text),
      ("service", .string logger.service),
      ("event", .string call.event)] logger.bound) call.data

/-- `JSON.stringify`. -/
def stringify (rt : Runtime) (value : LogJson) : String :=
  String.ofList (JsonText.render JsonText.quote (fun n =>
    ((n.map rt.numberToString).getD "null").toList) value)

/-- The line that a call writes.  The record is a new object, to which nothing
refers. -/
def Logger.write (rt : Runtime) (js : Scrubber) (heap : Heap)
    (logger : Logger) (call : LogCall) : List String :=
  if logger.shouldLog call.level then
    [stringify rt (.object (writtenEntries
      (redactEntries js (redactValue js heap 8) (logger.record call) []).1))]
  else []

/-- What a program does with a logger. -/
inductive LogAction where
  /-- Goes on with a child. -/
  | child (context : LogEntries)
  | log (call : LogCall)

/-- The lines that the actions write, where each finds its own heap. -/
def Logger.lines (rt : Runtime) (js : Scrubber) :
    Logger → List (Heap × LogAction) → List String
  | _, [] => []
  | logger, (_, .child context) :: rest =>
      (logger.child context).lines rt js rest
  | logger, (heap, .log call) :: rest =>
      logger.write rt js heap call ++ logger.lines rt js rest

/-! ## What two runs may differ in -/

section

variable (js : Scrubber) (visible : ℕ → Prop)

/-- The value leads to visible cells only. -/
def Shown (value : LogValue) : Prop :=
  ∀ address, value = .ref address → visible address

/-- The entries have one key, and one visible value unless the key is
sensitive. -/
def EntryAlike (entry entry' : String × LogValue) : Prop :=
  entry.1 = entry'.1 ∧ (isSensitiveKey js entry.1 = false →
    entry.2 = entry'.2 ∧ Shown visible entry.2)

abbrev EntriesAlike : LogEntries → LogEntries → Prop :=
  List.Forall₂ (EntryAlike js visible)

def CellAlike : Cell → Cell → Prop
  | .array items, .array items' =>
      items = items' ∧ ∀ item ∈ items, Shown visible item
  | .error name message, .error name' message' =>
      name = name' ∧ message = message'
  | .object entries, .object entries' =>
      EntriesAlike js visible entries entries'
  | _, _ => False

/-- The heaps differ only in what no visible cell shows outside of sensitive
entries. -/
def HeapAlike (heap heap' : Heap) : Prop :=
  ∀ address, visible address → CellAlike js visible (heap address)
    (heap' address)

def LoggerAlike (logger logger' : Logger) : Prop :=
  logger.service = logger'.service ∧ logger.level = logger'.level ∧
    EntriesAlike js visible logger.bound logger'.bound

def ActionAlike : LogAction → LogAction → Prop
  | .child context, .child context' => EntriesAlike js visible context context'
  | .log call, .log call' =>
      call.timestamp = call'.timestamp ∧ call.level = call'.level ∧
        call.event = call'.event ∧ EntriesAlike js visible call.data call'.data
  | _, _ => False

/-- The actions and the heaps they find. -/
def StepAlike (step step' : Heap × LogAction) : Prop :=
  HeapAlike js visible step.1 step'.1 ∧ ActionAlike js visible step.2 step'.2

end

theorem threaded_congr {α β σ : Type} {f g : α → σ → β × σ} {l l' : List α}
    (h : List.Forall₂ (fun a b => ∀ s, f a s = g b s) l l') (s : σ) :
    threaded f l s = threaded g l' s := by
  induction h generalizing s with
  | nil => rfl
  | cons hhead _ ih => simp only [threaded, hhead s, ih]

section

variable {js : Scrubber} {visible : ℕ → Prop}

/-- Entries that are alike are copied alike, where their visible values
are. -/
theorem redactEntries_alike
    {redact redact' : LogValue → List ℕ → Option LogJson × List ℕ}
    (hredact : ∀ value, Shown visible value →
      ∀ seen, redact value seen = redact' value seen)
    {entries entries' : LogEntries}
    (h : EntriesAlike js visible entries entries') (seen : List ℕ) :
    redactEntries js redact entries seen =
      redactEntries js redact' entries' seen := by
  apply threaded_congr
  apply h.imp
  rintro ⟨key, value⟩ ⟨key', value'⟩ ⟨hkey, hvalue⟩ s
  simp only at hkey hvalue
  subst hkey
  by_cases hsensitive : isSensitiveKey js key = true
  · simp [hsensitive]
  · rw [Bool.not_eq_true] at hsensitive
    obtain ⟨hsame, hshown⟩ := hvalue hsensitive
    subst hsame
    simp [hsensitive, hredact value hshown s]

/-- In heaps that are alike a visible value is copied alike, whatever was seen
before and however many levels are left. -/
theorem redactValue_alike {heap heap' : Heap}
    (h : HeapAlike js visible heap heap') (levels : ℕ) (value : LogValue)
    (hvalue : Shown visible value) (seen : List ℕ) :
    redactValue js heap levels value seen =
      redactValue js heap' levels value seen := by
  induction levels generalizing value seen with
  | zero => cases value <;> rfl
  | succ levels ih =>
      cases value with
      | undefined => rfl
      | null => rfl
      | bool b => rfl
      | number n => rfl
      | string s => rfl
      | other text => rfl
      | ref address =>
          have hcell := h address (hvalue address rfl)
          simp only [redactValue]
          cases hleft : heap address with
          | array items =>
              cases hright : heap' address with
              | array items' =>
                  rw [hleft, hright] at hcell
                  obtain ⟨hsame, hshown⟩ := hcell
                  subst hsame
                  have hcopies : threaded (redactValue js heap levels) items
                      seen = threaded (redactValue js heap' levels) items
                        seen := by
                    apply threaded_congr
                    apply List.forall₂_same.mpr
                    intro item hitem s
                    exact ih item (hshown item hitem) s
                  simp only [hcopies]
              | error name message => rw [hleft, hright] at hcell; contradiction
              | object entries => rw [hleft, hright] at hcell; contradiction
          | error name message =>
              cases hright : heap' address with
              | array items => rw [hleft, hright] at hcell; contradiction
              | error name' message' =>
                  rw [hleft, hright] at hcell
                  rw [hcell.1, hcell.2]
              | object entries => rw [hleft, hright] at hcell; contradiction
          | object entries =>
              cases hright : heap' address with
              | array items => rw [hleft, hright] at hcell; contradiction
              | error name message => rw [hleft, hright] at hcell; contradiction
              | object entries' =>
                  rw [hleft, hright] at hcell
                  have hcopies := redactEntries_alike (fun v hv s => ih v hv s)
                    hcell (address :: seen)
                  simp only [hcopies]

/-! ## Records that are alike -/

theorem setEntry_alike {entry entry' : String × LogValue}
    (hentry : EntryAlike js visible entry entry')
    {entries entries' : LogEntries}
    (h : EntriesAlike js visible entries entries') :
    EntriesAlike js visible (setEntry entry.1 entry.2 entries)
      (setEntry entry'.1 entry'.2 entries') := by
  induction h with
  | nil => exact .cons hentry .nil
  | @cons head head' rest rest' hhead hrest ih =>
      have hkeys : head.1 = entry.1 ↔ head'.1 = entry'.1 := by
        rw [hhead.1, hentry.1]
      by_cases hkey : head.1 = entry.1
      · rw [setEntry, if_pos hkey, setEntry, if_pos (hkeys.mp hkey)]
        exact .cons hentry hrest
      · rw [setEntry, if_neg hkey, setEntry, if_neg (hkey ∘ hkeys.mpr)]
        exact .cons hhead ih

theorem spread_alike {base base' extra extra' : LogEntries}
    (hbase : EntriesAlike js visible base base')
    (hextra : EntriesAlike js visible extra extra') :
    EntriesAlike js visible (spread base extra) (spread base' extra') := by
  induction hextra generalizing base base' with
  | nil => exact hbase
  | cons hentry _ ih => exact ih (setEntry_alike hentry hbase)

/-- A text shows no cell. -/
theorem entryAlike_string (key text : String) :
    EntryAlike js visible (key, .string text) (key, .string text) :=
  ⟨rfl, fun _ => ⟨rfl, fun _ h => by contradiction⟩⟩

theorem record_alike {logger logger' : Logger} {call call' : LogCall}
    (hlogger : LoggerAlike js visible logger logger')
    (hcall : ActionAlike js visible (.log call) (.log call')) :
    EntriesAlike js visible (logger.record call) (logger'.record call') := by
  obtain ⟨hservice, -, hbound⟩ := hlogger
  obtain ⟨htimestamp, hlevel, hevent, hdata⟩ := hcall
  unfold Logger.record
  rw [hservice, htimestamp, hlevel, hevent]
  apply spread_alike _ hdata
  apply spread_alike _ hbound
  exact .cons (entryAlike_string _ _) (.cons (entryAlike_string _ _)
    (.cons (entryAlike_string _ _) (.cons (entryAlike_string _ _) .nil)))

theorem write_alike (rt : Runtime) {logger logger' : Logger}
    {heap heap' : Heap} {call call' : LogCall}
    (hlogger : LoggerAlike js visible logger logger')
    (hheap : HeapAlike js visible heap heap')
    (hcall : ActionAlike js visible (.log call) (.log call')) :
    logger.write rt js heap call = logger'.write rt js heap' call' := by
  have hlogs : logger.shouldLog call.level = logger'.shouldLog call'.level := by
    rw [Logger.shouldLog, Logger.shouldLog, hlogger.2.1, hcall.2.1]
  have hcopy := redactEntries_alike
    (fun v hv s => redactValue_alike hheap 8 v hv s)
    (record_alike hlogger hcall) []
  rw [Logger.write, Logger.write, hlogs, hcopy]

/-- Two runs of a program with a logger write the same lines when they differ
only in what sensitive keys hold. -/
theorem lines_hide_secrets (rt : Runtime) {logger logger' : Logger}
    {steps steps' : List (Heap × LogAction)}
    (hlogger : LoggerAlike js visible logger logger')
    (hsteps : List.Forall₂ (StepAlike js visible) steps steps') :
    logger.lines rt js steps = logger'.lines rt js steps' := by
  induction hsteps generalizing logger logger' with
  | nil => rfl
  | @cons step step' rest rest' hstep hrest ih =>
      obtain ⟨heap, action⟩ := step
      obtain ⟨heap', action'⟩ := step'
      obtain ⟨hheap, haction⟩ := hstep
      cases action with
      | child context =>
          cases action' with
          | child context' =>
              rw [Logger.lines, Logger.lines]
              apply ih
              exact ⟨hlogger.1, hlogger.2.1,
                spread_alike hlogger.2.2 haction⟩
          | log call => contradiction
      | log call =>
          cases action' with
          | child context => contradiction
          | log call' =>
              rw [Logger.lines, Logger.lines,
                write_alike rt hlogger hheap haction, ih hlogger]

end

/-! ## A run with two secrets -/

def sampleScrubber : Scrubber where
  toLowerCase := id
  includes := fun text hint => decide (hint.toList <:+: text.toList)
  urlCredentials := id
  bearerTokens := id
  keyValueSecrets := id

/-- Cell 0 refers to itself, and to cell 1 under a sensitive key. -/
def sampleHeap (secret : String) : Heap
  | 0 => .object [("self", .ref 0), ("token", .ref 1)]
  | _ => .object [("value", .string secret)]

/-- A child with a password logs cell 0. -/
def sampleSteps (password secret : String) : List (Heap × LogAction) :=
  [(sampleHeap secret, .child [("password", .string password)]),
    (sampleHeap secret, .log ⟨"now", .info, "started", [("cell", .ref 0)]⟩)]

theorem sampleSteps_alike (password password' secret secret' : String) :
    List.Forall₂ (StepAlike sampleScrubber (· = 0))
      (sampleSteps password secret) (sampleSteps password' secret') := by
  have htoken : isSensitiveKey sampleScrubber "token" = true := by decide
  have hpassword : isSensitiveKey sampleScrubber "password" = true := by decide
  have hheap : HeapAlike sampleScrubber (· = 0) (sampleHeap secret)
      (sampleHeap secret') := by
    intro address haddress
    rw [haddress]
    refine .cons ⟨rfl, fun _ => ⟨rfl, ?_⟩⟩ (.cons ⟨rfl, ?_⟩ .nil)
    · intro target htarget
      exact (LogValue.ref.inj htarget).symm
    · rw [htoken]
      intro h
      contradiction
  refine .cons ⟨hheap, .cons ⟨rfl, ?_⟩ .nil⟩
    (.cons ⟨hheap, rfl, rfl, rfl, .cons ⟨rfl, fun _ => ⟨rfl, ?_⟩⟩ .nil⟩ .nil)
  · rw [hpassword]
    intro h
    contradiction
  · intro target htarget
    exact (LogValue.ref.inj htarget).symm

theorem sample_hides_secrets :
    (Logger.mk "sentinel-core" .info []).lines .reference sampleScrubber
        (sampleSteps "open" "one") =
      (Logger.mk "sentinel-core" .info []).lines .reference sampleScrubber
        (sampleSteps "sesame" "two") :=
  lines_hide_secrets .reference ⟨rfl, rfl, .nil⟩
    (sampleSteps_alike "open" "sesame" "one" "two")

end Logging
end Orvex
