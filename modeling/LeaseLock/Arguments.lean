import LeaseLock.Settings

/-
  LeaseLock: the command line of the lock server.
  Every setting has an option.  Its value follows as an argument of its own or behind an equals
  sign.  An option that waits for a value, or has one from an argument of its own, is settled when
  the next option or the end of the line comes; until then an argument that nobody knows is the
  first error.  An option may be given once.
-/

namespace LeaseLock

/-! ## Options -/

/-- The options that take a value. -/
inductive Setting where
  | listen
  | leaseMillis
  | sweepMillis
  | ioThreads
  | eventCapacity
deriving DecidableEq, Repr

namespace Setting

/-- The name of an option, without the two dashes. -/
def name : Setting → String
  | listen => "listen"
  | leaseMillis => "lease-ttl-ms"
  | sweepMillis => "sweep-interval-ms"
  | ioThreads => "io-threads"
  | eventCapacity => "event-capacity"

/-- The options in the order in which help lists them. -/
def all : List Setting := [listen, leaseMillis, sweepMillis, ioThreads, eventCapacity]

/-- The option with this name. -/
def ofName? (name : String) : Option Setting := all.find? fun s => s.name == name

theorem ofName?_name (s : Setting) : ofName? s.name = some s := by
  cases s <;> rfl

end Setting

/-- The number of 64 bits that a text is: decimal digits, which one plus sign may precede. -/
def u64OfText? (text : String) : Option UInt64 :=
  let digits : Scan Nat := fun s =>
    Scan.decimal (byteSpan 8) (((Scan.char '+' s).map (·.2)).getD s)
  (Scan.whole digits text).map UInt64.ofNat

/-- The settings with one of them read from a text. -/
def Settings.set? (s : Settings) (which : Setting) (text : String) : Option Settings :=
  match which with
  | .listen => (Net.Address.ofText? text).map fun a => { s with listen := a }
  | .leaseMillis => (u64OfText? text).map fun n => { s with leaseMillis := n }
  | .sweepMillis => (u64OfText? text).map fun n => { s with sweepMillis := n }
  | .ioThreads => (u64OfText? text).map fun n => { s with ioThreads := n }
  | .eventCapacity => (u64OfText? text).map fun n => { s with eventCapacity := n }

/-! ## Lines -/

namespace Arguments

/-- Why a command line gives no settings. -/
inductive Refusal where
  /-- The text is no value of the setting. -/
  | badValue (which : Setting) (text : String)
  /-- The option has no value. -/
  | noValue (which : Setting)
  /-- The option has been given before. -/
  | repeated (which : Setting)
  /-- Nobody knows the argument. -/
  | unknown (text : String)
  /-- Help was given a value. -/
  | helpWithValue
  /-- Help was asked for. -/
  | help
deriving DecidableEq, Repr

/-- What an argument looks like. -/
inductive Token where
  /-- A name behind two dashes, and the value behind its equals sign. -/
  | long (name : String) (value : Option String)
  /-- Letters behind one dash. -/
  | short (letters : List Char)
  /-- Anything else. -/
  | plain
deriving DecidableEq, Repr

/-- What an argument looks like. -/
def Token.ofText (text : String) : Token :=
  match text.toList with
  | '-' :: '-' :: rest =>
    .long (.ofList (rest.takeWhile (· != '=')))
      (match rest.dropWhile (· != '=') with
        | [] => none
        | _ :: value => some (.ofList value))
  | '-' :: c :: rest => .short (c :: rest)
  | _ => .plain

/-- How far the reading of a line is. -/
structure State where
  /-- The settings so far. -/
  settings : Settings
  /-- The options that have been settled. -/
  settled : List Setting
  /-- The option that is not settled yet, and its value if it has one. -/
  pending : Option (Setting × Option String)

/-- The start of a line. -/
def State.start : State := ⟨.default, [], none⟩

/-- Settle an option with a value. -/
def State.assign (s : State) (which : Setting) (text : String) : Except Refusal State :=
  if s.settled.contains which then .error (.repeated which)
  else
    match s.settings.set? which text with
    | some settings => .ok { s with settings, settled := which :: s.settled }
    | none => .error (.badValue which text)

/-- Settle the option that is not settled yet. -/
def State.resolve (s : State) : Except Refusal State :=
  match s.pending with
  | none => .ok s
  | some (which, none) => .error (.noValue which)
  | some (which, some text) => { s with pending := none }.assign which text

/-- Read an argument. -/
def State.read (s : State) (text : String) : Except Refusal State :=
  match Token.ofText text with
  | .long "help" none => s.resolve.bind fun _ => .error .help
  | .long "help" (some _) => .error .helpWithValue
  | .long name value =>
    match Setting.ofName? name with
    | none => .error (.unknown text)
    | some which => do
      let s ← s.resolve
      match value with
      | some value => s.assign which value
      | none => .ok { s with pending := some (which, none) }
  | .short ('h' :: _) => s.resolve.bind fun _ => .error .help
  | .short _ => .error (.unknown text)
  | .plain =>
    match s.pending with
    | some (which, none) => .ok { s with pending := some (which, some text) }
    | _ => .error (.unknown text)

/-- Read the arguments in order.  Behind two dashes no argument has a meaning. -/
def State.readAll (s : State) : List String → Except Refusal State
  | [] => s.resolve
  | "--" :: [] => s.resolve
  | "--" :: next :: _ => .error (.unknown next)
  | text :: rest => do
    let s ← s.read text
    s.readAll rest

end Arguments

/-- The settings that a command line gives. -/
def Settings.ofArguments (arguments : List String) : Except Arguments.Refusal Settings :=
  (Arguments.State.start.readAll arguments).map (·.settings)

end LeaseLock
