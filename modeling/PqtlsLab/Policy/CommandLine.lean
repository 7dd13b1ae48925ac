import PqtlsLab.Error
import Mathlib.Data.List.TakeWhile

/-!
# The command line

The first argument is the command unless it begins with two dashes; of the others, the parser takes
`--name=value`, a flag, or an option together with the argument after it, and it puts every other
word aside. The names of the options are then compared with those that the binary declares. The
words that were put aside are looked at by nobody, and an option takes the next argument for its
value whatever that looks like.
-/

namespace PqtlsLab

/-- `cli::Arguments`. -/
structure Arguments where
  command : Bytes := []
  /-- `options`, in the order of the map. -/
  options : List (Bytes × Bytes) := []
  positional : List Bytes := []
  deriving DecidableEq

/-- `has`. -/
def Arguments.has (args : Arguments) (name : Bytes) : Bool :=
  args.options.any fun option => option.1 == name

namespace CommandLine

/-- What an option begins with. -/
def dashes : Bytes := ascii "--"

/-- The sign between a name and its value. -/
def equalsSign : UInt8 := 0x3D

/-- `options[name] = value`. -/
def assignOption (name value : Bytes) : List (Bytes × Bytes) → List (Bytes × Bytes)
  | [] => [(name, value)]
  | (n, v) :: rest =>
    if name = n then (name, value) :: rest
    else if name.lex n fun a b => decide (a.toNat < b.toNat) then (name, value) :: (n, v) :: rest
    else (n, v) :: assignOption name value rest

/-- An option is given a value. -/
def assign (args : Arguments) (name value : Bytes) : Arguments :=
  { args with options := assignOption name value args.options }

/-- The part before the first sign between a name and its value. -/
def nameOf (token : Bytes) : Bytes := token.takeWhile (· != equalsSign)

/-- The part after the first sign between a name and its value. -/
def valueOf (token : Bytes) : Bytes := (token.dropWhile (· != equalsSign)).drop 1

/-- The loop of `cli::parse`, from one of the arguments on. -/
def parseTokens (knownFlags : List Bytes) : List Bytes → Arguments → Except Thrown Arguments
  | [], args => .ok args
  | token :: rest, args =>
    if !dashes.isPrefixOf token then
      parseTokens knownFlags rest { args with positional := args.positional ++ [token] }
    else if equalsSign ∈ token.drop 2 then
      parseTokens knownFlags rest (assign args (nameOf (token.drop 2)) (valueOf (token.drop 2)))
    else if token.drop 2 ∈ knownFlags then
      parseTokens knownFlags rest (assign args (token.drop 2) (ascii "true"))
    else
      match rest with
      | [] => .error (configurationError
          (ascii "option --" ++ token.drop 2 ++ ascii " requires a value"))
      | value :: rest => parseTokens knownFlags rest (assign args (token.drop 2) value)

/-- `cli::parse`. -/
def parse (knownFlags argv : List Bytes) : Except Thrown Arguments :=
  match argv.drop 1 with
  | [] => .ok {}
  | first :: rest =>
    if dashes.isPrefixOf first then parseTokens knownFlags (first :: rest) {}
    else parseTokens knownFlags rest { command := first }

/-- `reject_unknown_options`. -/
def rejectUnknownOptions (accepted : List Bytes) (args : Arguments) : Except Thrown Unit :=
  match args.options.find? fun option => decide (option.1 ∉ accepted) with
  | none => .ok ()
  | some (name, _) => .error (configurationError
      (ascii "unknown option --" ++ name ++
        ascii ". Run with --help for the accepted options; unknown options are rejected so " ++
        ascii "that a typo cannot leave a different security policy in effect."))

/-- The two binaries. -/
inductive Binary where
  | client
  | server
  deriving DecidableEq, Repr

namespace Binary

/-- `kFlags`. -/
def kFlags : Binary → List Bytes
  | client => [ascii "json", ascii "help", ascii "version", ascii "insecure-development-mode",
      ascii "reuse-session"]
  | server => [ascii "json", ascii "help", ascii "version", ascii "insecure-development-mode",
      ascii "require-client-cert"]

/-- `kAcceptedOptions`. -/
def kAcceptedOptions : Binary → List Bytes
  | client => [ascii "host", ascii "port", ascii "server-name", ascii "profile",
      ascii "profiles-file", ascii "ca-certificate", ascii "certificate", ascii "private-key",
      ascii "message", ascii "message-file", ascii "metrics", ascii "experiment-id",
      ascii "max-frame-size", ascii "handshake-timeout", ascii "io-timeout", ascii "config",
      ascii "log-level", ascii "json", ascii "help", ascii "version",
      ascii "insecure-development-mode", ascii "keylog-file", ascii "connections",
      ascii "concurrency", ascii "warmup", ascii "messages-per-connection",
      ascii "reuse-session", ascii "output"]
  | server => [ascii "listen", ascii "port", ascii "profile", ascii "profiles-file",
      ascii "certificate", ascii "private-key", ascii "ca-certificate",
      ascii "require-client-cert", ascii "metrics", ascii "experiment-id",
      ascii "max-connections", ascii "backlog", ascii "max-frame-size",
      ascii "handshake-timeout", ascii "io-timeout", ascii "max-messages", ascii "config",
      ascii "log-level", ascii "json", ascii "help", ascii "version",
      ascii "insecure-development-mode", ascii "keylog-file"]

/-- The commands that make or take connections. -/
def connectionCommands : Binary → List Bytes
  | client => [ascii "connect", ascii "benchmark"]
  | server => [ascii "serve"]

/-- A command line that is accepted, for a command that makes or takes connections. -/
structure Accepts (binary : Binary) (argv : List Bytes) (args : Arguments) : Prop where
  parsed : parse binary.kFlags argv = .ok args
  known : rejectUnknownOptions binary.kAcceptedOptions args = .ok ()
  command : args.command ∈ binary.connectionCommands
  no_help : args.has (ascii "help") = false
  no_version : args.has (ascii "version") = false

end Binary

/-- What the parser takes at a time. -/
inductive Piece where
  /-- `--name=value`. -/
  | assigned (name value : Bytes)
  /-- `--flag`. -/
  | flag (name : Bytes)
  /-- `--name`, and the next argument for its value. -/
  | spaced (name value : Bytes)
  /-- A word that is put aside. -/
  | bare (word : Bytes)

namespace Piece

/-- The arguments of a piece. -/
def tokens : Piece → List Bytes
  | assigned name value => [dashes ++ name ++ equalsSign :: value]
  | flag name => [dashes ++ name]
  | spaced name value => [dashes ++ name, value]
  | bare word => [word]

/-- What a piece does to the result. -/
def apply (args : Arguments) : Piece → Arguments
  | assigned name value => assign args name value
  | flag name => assign args name (ascii "true")
  | spaced name value => assign args name value
  | bare word => { args with positional := args.positional ++ [word] }

/-- The option that a piece sets. -/
def name? : Piece → Option Bytes
  | assigned name _ => some name
  | flag name => some name
  | spaced name _ => some name
  | bare _ => none

end Piece

/-- The pieces of the arguments after the command, as the parser takes them. -/
def pieces (knownFlags : List Bytes) : List Bytes → Except Thrown (List Piece)
  | [] => .ok []
  | token :: rest =>
    if !dashes.isPrefixOf token then
      (pieces knownFlags rest).map (.bare token :: ·)
    else if equalsSign ∈ token.drop 2 then
      (pieces knownFlags rest).map
        (.assigned (nameOf (token.drop 2)) (valueOf (token.drop 2)) :: ·)
    else if token.drop 2 ∈ knownFlags then
      (pieces knownFlags rest).map (.flag (token.drop 2) :: ·)
    else
      match rest with
      | [] => .error (configurationError
          (ascii "option --" ++ token.drop 2 ++ ascii " requires a value"))
      | value :: rest => (pieces knownFlags rest).map (.spaced (token.drop 2) value :: ·)

/-- The argument names one of the flags. -/
def namesFlag (knownFlags : List Bytes) (token : Bytes) : Bool :=
  dashes.isPrefixOf token && decide (nameOf (token.drop 2) ∈ knownFlags)

/-- Nothing of the piece is lost: it sets an accepted option, and its value does not name a flag. -/
def Piece.Used (binary : Binary) : Piece → Prop
  | assigned name _ => name ∈ binary.kAcceptedOptions
  | flag name => name ∈ binary.kFlags ∧ name ∈ binary.kAcceptedOptions
  | spaced name value =>
    name ∈ binary.kAcceptedOptions ∧ namesFlag binary.kFlags value = false
  | bare _ => False

/-- Every argument after the program name is the command or belongs to a piece of which nothing is
lost, and no word is left aside. -/
def EveryTokenUsed (binary : Binary) (argv : List Bytes) (args : Arguments) : Prop :=
  ∃ parts, pieces binary.kFlags (argv.drop 2) = .ok parts ∧
    argv.drop 1 = args.command :: parts.flatMap Piece.tokens ∧
    (∀ part ∈ parts, part.Used binary) ∧ args.positional = []

/-- The arguments after the command have the documented form: each is `--name=value`, a flag, or an
option followed by a value that does not name a flag. -/
inductive Documented (knownFlags : List Bytes) : List Bytes → Prop
  | nil : Documented knownFlags []
  | assigned (name value : Bytes) {rest : List Bytes} (hname : equalsSign ∉ name)
      (hrest : Documented knownFlags rest) :
      Documented knownFlags ((dashes ++ name ++ equalsSign :: value) :: rest)
  | flag (name : Bytes) {rest : List Bytes} (hname : equalsSign ∉ name)
      (hflag : name ∈ knownFlags) (hrest : Documented knownFlags rest) :
      Documented knownFlags ((dashes ++ name) :: rest)
  | spaced (name value : Bytes) {rest : List Bytes} (hname : equalsSign ∉ name)
      (hflag : name ∉ knownFlags) (hvalue : namesFlag knownFlags value = false)
      (hrest : Documented knownFlags rest) :
      Documented knownFlags ((dashes ++ name) :: value :: rest)

/-- A piece is written as the parser expects it. -/
def Piece.Written (knownFlags : List Bytes) : Piece → Prop
  | assigned name _ => equalsSign ∉ name
  | flag name => equalsSign ∉ name ∧ name ∈ knownFlags
  | spaced name _ => equalsSign ∉ name ∧ name ∉ knownFlags
  | bare word => dashes.isPrefixOf word = false

/-- Nothing is put aside and no value names a flag. -/
def Piece.Tidy (knownFlags : List Bytes) : Piece → Prop
  | assigned _ _ => True
  | flag _ => True
  | spaced _ value => namesFlag knownFlags value = false
  | bare _ => False

/-- Two dashes begin an option. -/
theorem isPrefixOf_dashes_append (name : Bytes) : dashes.isPrefixOf (dashes ++ name) = true := by
  rw [List.isPrefixOf_iff_prefix]
  exact List.prefix_append _ _

/-- Without its two dashes an option is its name. -/
theorem drop_dashes_append (name : Bytes) : (dashes ++ name).drop 2 = name := rfl

/-- An argument that begins with two dashes is these and the rest. -/
theorem dashes_append_drop {token : Bytes} (h : dashes.isPrefixOf token = true) :
    dashes ++ token.drop 2 = token := by
  obtain ⟨name, rfl⟩ := List.isPrefixOf_iff_prefix.mp h
  rfl

/-- A name ends at the first sign after it. -/
theorem nameOf_append {name : Bytes} (h : equalsSign ∉ name) (value : Bytes) :
    nameOf (name ++ equalsSign :: value) = name := by
  unfold nameOf
  rw [List.takeWhile_append_of_pos]
  · simp
  · intro b hb
    simp only [bne_iff_ne, ne_eq]
    rintro rfl
    exact h hb

/-- A value begins after the first sign. -/
theorem valueOf_append {name : Bytes} (h : equalsSign ∉ name) (value : Bytes) :
    valueOf (name ++ equalsSign :: value) = value := by
  unfold valueOf
  rw [List.dropWhile_append_of_pos]
  · simp
  · intro b hb
    simp only [bne_iff_ne, ne_eq]
    rintro rfl
    exact h hb

/-- No name contains the sign. -/
theorem equalsSign_notMem_nameOf (token : Bytes) : equalsSign ∉ nameOf token := by
  intro hmem
  simpa using List.mem_takeWhile_imp hmem

/-- A name, the sign and a value are the whole of an argument. -/
theorem nameOf_append_valueOf {token : Bytes} (h : equalsSign ∈ token) :
    nameOf token ++ equalsSign :: valueOf token = token := by
  obtain ⟨name, value, rfl, hname⟩ := List.eq_append_cons_of_mem h
  rw [nameOf_append hname, valueOf_append hname]

section Reading

variable {knownFlags : List Bytes} {token : Bytes} {rest : List Bytes}

/-- A word without dashes is put aside. -/
theorem pieces_of_bare (h : dashes.isPrefixOf token = false) :
    pieces knownFlags (token :: rest) = (pieces knownFlags rest).map (.bare token :: ·) := by
  rw [pieces.eq_def]
  simp [h]

/-- An option with the sign in it carries its value. -/
theorem pieces_of_assigned (h : dashes.isPrefixOf token = true)
    (hequals : equalsSign ∈ token.drop 2) :
    pieces knownFlags (token :: rest) = (pieces knownFlags rest).map
      (.assigned (nameOf (token.drop 2)) (valueOf (token.drop 2)) :: ·) := by
  rw [pieces.eq_def]
  simp [h, hequals]

/-- A flag stands alone. -/
theorem pieces_of_flag (h : dashes.isPrefixOf token = true) (hequals : equalsSign ∉ token.drop 2)
    (hflag : token.drop 2 ∈ knownFlags) :
    pieces knownFlags (token :: rest) =
      (pieces knownFlags rest).map (.flag (token.drop 2) :: ·) := by
  rw [pieces.eq_def]
  simp [h, hequals, hflag]

/-- Any other option takes the next argument. -/
theorem pieces_of_spaced {value : Bytes} (h : dashes.isPrefixOf token = true)
    (hequals : equalsSign ∉ token.drop 2) (hflag : token.drop 2 ∉ knownFlags) :
    pieces knownFlags (token :: value :: rest) =
      (pieces knownFlags rest).map (.spaced (token.drop 2) value :: ·) := by
  rw [pieces.eq_def]
  simp [h, hequals, hflag]

end Reading

/-- The parser does to its result what the pieces say. -/
theorem parseTokens_eq (knownFlags tokens : List Bytes) (args : Arguments) :
    parseTokens knownFlags tokens args =
      (pieces knownFlags tokens).map fun parts => parts.foldl Piece.apply args := by
  fun_induction parseTokens knownFlags tokens args with
  | case1 => rfl
  | case2 token rest args hdashes ih =>
    rw [ih, pieces_of_bare (by simpa using hdashes)]
    cases pieces knownFlags rest <;> rfl
  | case3 token rest args hdashes hequals ih =>
    rw [ih, pieces_of_assigned (by simpa using hdashes) hequals]
    cases pieces knownFlags rest <;> rfl
  | case4 token rest args hdashes hequals hflag ih =>
    rw [ih, pieces_of_flag (by simpa using hdashes) hequals hflag]
    cases pieces knownFlags rest <;> rfl
  | case5 token args hdashes hequals hflag =>
    rw [pieces, if_neg hdashes, if_neg hequals, if_neg hflag]
    rfl
  | case6 token args hdashes hequals hflag value rest ih =>
    rw [ih, pieces_of_spaced (by simpa using hdashes) hequals hflag]
    cases pieces knownFlags rest <;> rfl

/-- Pieces that are written as expected are read back. -/
theorem pieces_flatMap_tokens {knownFlags : List Bytes} {parts : List Piece}
    (h : ∀ part ∈ parts, part.Written knownFlags) :
    pieces knownFlags (parts.flatMap Piece.tokens) = .ok parts := by
  induction parts with
  | nil => rfl
  | cons part parts ih =>
    have hparts := ih fun p hp => h p (List.mem_cons_of_mem _ hp)
    have hpart := h part List.mem_cons_self
    rw [List.flatMap_cons]
    cases part with
    | assigned name value =>
      rw [Piece.tokens, List.singleton_append, List.append_assoc,
        pieces_of_assigned (isPrefixOf_dashes_append _) (by simp [drop_dashes_append]),
        drop_dashes_append, hparts, nameOf_append hpart, valueOf_append hpart]
      rfl
    | flag name =>
      rw [Piece.tokens, List.singleton_append,
        pieces_of_flag (isPrefixOf_dashes_append _) hpart.1 hpart.2, hparts]
      rfl
    | spaced name value =>
      rw [Piece.tokens, List.cons_append, List.singleton_append,
        pieces_of_spaced (isPrefixOf_dashes_append _) hpart.1 hpart.2, hparts]
      rfl
    | bare word =>
      rw [Piece.tokens, List.singleton_append, pieces_of_bare hpart, hparts]
      rfl

/-- A result that was extended comes from a result. -/
theorem map_cons_eq_ok {part : Piece} {x : Except Thrown (List Piece)} {parts : List Piece}
    (h : x.map (part :: ·) = .ok parts) : ∃ rest, x = .ok rest ∧ parts = part :: rest := by
  cases x with
  | error e => cases h
  | ok rest => exact ⟨rest, rfl, (Except.ok.inj h).symm⟩

/-- What is read are pieces written as expected, and all of the arguments. -/
theorem written_of_pieces {knownFlags tokens : List Bytes} {parts : List Piece}
    (h : pieces knownFlags tokens = .ok parts) :
    (∀ part ∈ parts, part.Written knownFlags) ∧ parts.flatMap Piece.tokens = tokens := by
  fun_induction pieces knownFlags tokens generalizing parts with
  | case1 =>
    cases h
    simp
  | case2 token rest hdashes ih =>
    obtain ⟨parts, hrest, rfl⟩ := map_cons_eq_ok h
    obtain ⟨hwritten, htokens⟩ := ih hrest
    have hbare : dashes.isPrefixOf token = false := by simpa using hdashes
    refine ⟨List.forall_mem_cons.mpr ⟨hbare, hwritten⟩, ?_⟩
    rw [List.flatMap_cons, htokens]
    rfl
  | case3 token rest hdashes hequals ih =>
    obtain ⟨parts, hrest, rfl⟩ := map_cons_eq_ok h
    obtain ⟨hwritten, htokens⟩ := ih hrest
    refine ⟨List.forall_mem_cons.mpr ⟨equalsSign_notMem_nameOf _, hwritten⟩, ?_⟩
    rw [List.flatMap_cons, htokens, Piece.tokens, List.append_assoc,
      nameOf_append_valueOf hequals, dashes_append_drop (by simpa using hdashes)]
    rfl
  | case4 token rest hdashes hequals hflag ih =>
    obtain ⟨parts, hrest, rfl⟩ := map_cons_eq_ok h
    obtain ⟨hwritten, htokens⟩ := ih hrest
    refine ⟨List.forall_mem_cons.mpr ⟨⟨hequals, hflag⟩, hwritten⟩, ?_⟩
    rw [List.flatMap_cons, htokens, Piece.tokens, dashes_append_drop (by simpa using hdashes)]
    rfl
  | case5 token hdashes hequals hflag => cases h
  | case6 token hdashes hequals hflag value rest ih =>
    obtain ⟨parts, hrest, rfl⟩ := map_cons_eq_ok h
    obtain ⟨hwritten, htokens⟩ := ih hrest
    refine ⟨List.forall_mem_cons.mpr ⟨⟨hequals, hflag⟩, hwritten⟩, ?_⟩
    rw [List.flatMap_cons, htokens, Piece.tokens, dashes_append_drop (by simpa using hdashes)]
    rfl

/-- Tidy pieces, written as expected, have the documented form. -/
theorem documented_flatMap_tokens {knownFlags : List Bytes} {parts : List Piece}
    (hwritten : ∀ part ∈ parts, part.Written knownFlags)
    (htidy : ∀ part ∈ parts, part.Tidy knownFlags) :
    Documented knownFlags (parts.flatMap Piece.tokens) := by
  induction parts with
  | nil => exact .nil
  | cons part parts ih =>
    have hrest := ih (fun p hp => hwritten p (List.mem_cons_of_mem _ hp))
      fun p hp => htidy p (List.mem_cons_of_mem _ hp)
    have hpart := hwritten part List.mem_cons_self
    cases part with
    | assigned name value => exact .assigned name value hpart hrest
    | flag name => exact .flag name hpart.1 hpart.2 hrest
    | spaced name value =>
      exact .spaced name value hpart.1 hpart.2 (htidy _ List.mem_cons_self) hrest
    | bare word => exact (htidy _ List.mem_cons_self).elim

/-- The documented form is that of tidy pieces. -/
theorem exists_tidy_of_documented {knownFlags tokens : List Bytes}
    (h : Documented knownFlags tokens) :
    ∃ parts : List Piece, (∀ part ∈ parts, part.Written knownFlags) ∧
      (∀ part ∈ parts, part.Tidy knownFlags) ∧ parts.flatMap Piece.tokens = tokens := by
  induction h with
  | nil => exact ⟨[], by simp, by simp, rfl⟩
  | assigned name value hname _ ih =>
    obtain ⟨parts, hwritten, htidy, rfl⟩ := ih
    exact ⟨.assigned name value :: parts, List.forall_mem_cons.mpr ⟨hname, hwritten⟩,
      List.forall_mem_cons.mpr ⟨trivial, htidy⟩, rfl⟩
  | flag name hname hflag _ ih =>
    obtain ⟨parts, hwritten, htidy, rfl⟩ := ih
    exact ⟨.flag name :: parts, List.forall_mem_cons.mpr ⟨⟨hname, hflag⟩, hwritten⟩,
      List.forall_mem_cons.mpr ⟨trivial, htidy⟩, rfl⟩
  | spaced name value hname hflag hvalue _ ih =>
    obtain ⟨parts, hwritten, htidy, rfl⟩ := ih
    exact ⟨.spaced name value :: parts, List.forall_mem_cons.mpr ⟨⟨hname, hflag⟩, hwritten⟩,
      List.forall_mem_cons.mpr ⟨hvalue, htidy⟩, rfl⟩

/-- Arguments have the documented form exactly when the parser reads tidy pieces. -/
theorem documented_iff {knownFlags tokens : List Bytes} {parts : List Piece}
    (h : pieces knownFlags tokens = .ok parts) :
    Documented knownFlags tokens ↔ ∀ part ∈ parts, part.Tidy knownFlags := by
  obtain ⟨hwritten, rfl⟩ := written_of_pieces h
  constructor
  · intro hdocumented
    obtain ⟨parts', hwritten', htidy, htokens⟩ := exists_tidy_of_documented hdocumented
    have hread := pieces_flatMap_tokens hwritten'
    rw [htokens, h] at hread
    cases hread
    exact htidy
  · exact documented_flatMap_tokens hwritten

/-- Assigning an option keeps the names and adds that of the option. -/
theorem mem_names_assignOption (name value n : Bytes) (options : List (Bytes × Bytes)) :
    n ∈ (assignOption name value options).map Prod.fst ↔
      n = name ∨ n ∈ options.map Prod.fst := by
  fun_induction assignOption name value options with
  | case1 => simp
  | case2 v rest => simp
  | case3 n' v rest hne hlt => simp
  | case4 n' v rest hne hlt ih =>
    rw [List.map_cons, List.mem_cons, ih, List.map_cons, List.mem_cons]
    tauto

/-- The option that a piece sets is in the result. -/
theorem mem_names_foldl {parts : List Piece} {args : Arguments} {n : Bytes} :
    n ∈ (parts.foldl Piece.apply args).options.map Prod.fst ↔
      (∃ part ∈ parts, part.name? = some n) ∨ n ∈ args.options.map Prod.fst := by
  induction parts generalizing args with
  | nil => simp
  | cons part parts ih =>
    have hpart : n ∈ (Piece.apply args part).options.map Prod.fst ↔
        part.name? = some n ∨ n ∈ args.options.map Prod.fst := by
      cases part <;> simp [Piece.apply, assign, Piece.name?, mem_names_assignOption, eq_comm]
    rw [List.foldl_cons, ih, hpart, List.exists_mem_cons_iff, or_left_comm, or_assoc]

/-- Words are put aside exactly when there is a piece that is a word. -/
theorem positional_foldl_eq_nil_iff {parts : List Piece} {args : Arguments} :
    (parts.foldl Piece.apply args).positional = [] ↔
      args.positional = [] ∧ ∀ part ∈ parts, part.name? ≠ none := by
  induction parts generalizing args with
  | nil => simp
  | cons part parts ih =>
    rw [List.foldl_cons, ih]
    cases part <;> simp [Piece.apply, assign, Piece.name?]

/-- The options are all accepted exactly when none of them is rejected. -/
theorem rejectUnknownOptions_eq_ok_iff {accepted : List Bytes} {args : Arguments} :
    rejectUnknownOptions accepted args = .ok () ↔
      ∀ name ∈ args.options.map Prod.fst, name ∈ accepted := by
  unfold rejectUnknownOptions
  split
  · rename_i hnone
    simpa using hnone
  · rename_i name value hsome
    have hmem := List.mem_of_find?_eq_some hsome
    have hunknown := List.find?_some hsome
    simp only [reduceCtorEq, false_iff, not_forall]
    exact ⟨name, List.mem_map.mpr ⟨_, hmem, rfl⟩, by simpa using hunknown⟩

/-- Pieces leave the command alone. -/
theorem command_foldl (parts : List Piece) (args : Arguments) :
    (parts.foldl Piece.apply args).command = args.command := by
  induction parts generalizing args with
  | nil => rfl
  | cons part parts ih =>
    rw [List.foldl_cons, ih]
    cases part <;> rfl

/-- A parser that returns has read pieces. -/
theorem parseTokens_eq_ok_iff {knownFlags tokens : List Bytes} {args result : Arguments} :
    parseTokens knownFlags tokens args = .ok result ↔
      ∃ parts, pieces knownFlags tokens = .ok parts ∧ result = parts.foldl Piece.apply args := by
  rw [parseTokens_eq]
  cases pieces knownFlags tokens with
  | error e => simp [Except.map]
  | ok parts => simp [Except.map, eq_comm]

/-- Every connection command has a name. -/
theorem Binary.nil_notMem_connectionCommands (binary : Binary) :
    ([] : Bytes) ∉ binary.connectionCommands := by
  cases binary <;> decide

/-- After an accepted command line the command is the first argument, and the result is what the
pieces of the others say. -/
theorem Binary.Accepts.exists_pieces {binary : Binary} {argv : List Bytes} {args : Arguments}
    (h : binary.Accepts argv args) :
    argv.drop 1 = args.command :: argv.drop 2 ∧ ∃ parts,
      pieces binary.kFlags (argv.drop 2) = .ok parts ∧
        args = parts.foldl Piece.apply { command := args.command } := by
  have hparsed := h.parsed
  have hcommand := h.command
  have hdrop : argv.drop 2 = (argv.drop 1).tail := by rw [List.tail_drop]
  unfold parse at hparsed
  split at hparsed
  · cases hparsed
    exact (binary.nil_notMem_connectionCommands hcommand).elim
  · rename_i first rest hargv
    split at hparsed
    · obtain ⟨parts, -, rfl⟩ := parseTokens_eq_ok_iff.mp hparsed
      rw [command_foldl] at hcommand
      exact (binary.nil_notMem_connectionCommands hcommand).elim
    · obtain ⟨parts, hpieces, rfl⟩ := parseTokens_eq_ok_iff.mp hparsed
      rw [hdrop, hargv, command_foldl]
      exact ⟨rfl, parts, hpieces, rfl⟩

/-- A tidy piece is used when its option is accepted. -/
theorem Piece.used_of_tidy {binary : Binary} {part : Piece} (hwritten : part.Written binary.kFlags)
    (htidy : part.Tidy binary.kFlags)
    (hname : ∀ name, part.name? = some name → name ∈ binary.kAcceptedOptions) :
    part.Used binary := by
  cases part with
  | assigned name value => exact hname name rfl
  | flag name => exact ⟨hwritten.2, hname name rfl⟩
  | spaced name value => exact ⟨hname name rfl, htidy⟩
  | bare word => exact htidy

/-- A piece that is used is tidy. -/
theorem Piece.Used.tidy {binary : Binary} {part : Piece} (h : part.Used binary) :
    part.Tidy binary.kFlags := by
  cases part with
  | assigned name value => trivial
  | flag name => trivial
  | spaced name value => exact h.2
  | bare word => exact h

/-- No argument of an accepted command line is lost exactly when the arguments after the command
have the documented form. -/
theorem every_token_used_iff {binary : Binary} {argv : List Bytes} {args : Arguments}
    (h : binary.Accepts argv args) :
    EveryTokenUsed binary argv args ↔ Documented binary.kFlags (argv.drop 2) := by
  obtain ⟨hargv, parts, hpieces, hargs⟩ := h.exists_pieces
  obtain ⟨hwritten, htokens⟩ := written_of_pieces hpieces
  rw [documented_iff hpieces]
  constructor
  · rintro ⟨parts', hpieces', -, hused, -⟩ part hpart
    rw [hpieces] at hpieces'
    cases hpieces'
    exact (hused part hpart).tidy
  · intro htidy
    have hused : ∀ part ∈ parts, part.Used binary := by
      intro part hpart
      refine Piece.used_of_tidy (hwritten part hpart) (htidy part hpart) fun name hname => ?_
      refine rejectUnknownOptions_eq_ok_iff.mp h.known name ?_
      rw [hargs]
      exact mem_names_foldl.mpr (.inl ⟨part, hpart, hname⟩)
    refine ⟨parts, hpieces, by rw [hargv, htokens], hused, ?_⟩
    rw [hargs, positional_foldl_eq_nil_iff]
    refine ⟨rfl, fun part hpart hnone => ?_⟩
    cases part with
    | bare word => exact hused _ hpart
    | _ => cases hnone

/-- A server that demands client certificates, as it is started. -/
def serveArguments : List Bytes :=
  [ascii "pqtls-server", ascii "serve", ascii "--profile", ascii "hybrid-x25519-mlkem768",
    ascii "--require-client-cert"]

/-- All of its arguments are used. -/
theorem every_token_used_serve :
    ∃ args, Binary.server.Accepts serveArguments args ∧
      EveryTokenUsed .server serveArguments args := by
  have haccepts : Binary.server.Accepts serveArguments
      { command := ascii "serve"
        options := [(ascii "profile", ascii "hybrid-x25519-mlkem768"),
          (ascii "require-client-cert", ascii "true")] } :=
    ⟨by decide +kernel, by decide +kernel, by decide, by decide, by decide⟩
  refine ⟨_, haccepts, (every_token_used_iff haccepts).mpr ?_⟩
  exact .spaced (ascii "profile") _ (by decide) (by decide) (by decide)
    (.flag (ascii "require-client-cert") (by decide) (by decide) .nil)

/-- With a dash missing the profile is put aside, and with a value missing the demand for client
certificates is taken for the name of the profile. -/
theorem token_lost :
    (∃ argv args, argv = [ascii "pqtls-server", ascii "serve", ascii "-profile",
        ascii "hybrid-x25519-mlkem768"] ∧
      Binary.server.Accepts argv args ∧ args.positional ≠ [] ∧
        ¬EveryTokenUsed .server argv args) ∧
    ∃ argv args, argv = [ascii "pqtls-server", ascii "serve", ascii "--profile",
        ascii "--require-client-cert"] ∧
      Binary.server.Accepts argv args ∧ args.has (ascii "require-client-cert") = false ∧
        ¬EveryTokenUsed .server argv args := by
  refine ⟨⟨_, { command := ascii "serve"
                positional := [ascii "-profile", ascii "hybrid-x25519-mlkem768"] }, rfl,
      ⟨by decide +kernel, by decide, by decide, by decide, by decide⟩, by decide, ?_⟩,
    ⟨_, { command := ascii "serve"
          options := [(ascii "profile", ascii "--require-client-cert")] }, rfl,
      ⟨by decide +kernel, by decide +kernel, by decide, by decide, by decide⟩, by decide, ?_⟩⟩
  · rintro ⟨parts, -, -, -, hpositional⟩
    cases hpositional
  · rintro ⟨parts, hpieces, -, hused, -⟩
    have hread : pieces Binary.server.kFlags [ascii "--profile", ascii "--require-client-cert"] =
        .ok [.spaced (ascii "profile") (ascii "--require-client-cert")] := rfl
    have hparts := hpieces.symm.trans hread
    cases hparts
    exact absurd (hused _ List.mem_cons_self).2 (by decide)

end CommandLine

end PqtlsLab
