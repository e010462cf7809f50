/-
  VmkDrivers.Wfs.CommandLine

  The command line of `wfsctl` (`wfsctl.c`, `wfsctl_cmd.c`).

  `main` follows the menus down: each keyword is looked up in the menu at hand,
  takes as many tokens as its entry says, and opens the next menu.  What it takes
  up it appends to `cmdline`, and the arguments are handed over together, whatever
  the levels they were taken at.

  The handler that is called reads only what was stored, and each entry as what
  the menus announced it to be.  Nothing bounds the texts: they fit their buffers
  exactly if the line is short (`command_line_iff`, `command_line_long`).

  What `getopt_long` makes of the line is given: the options, and the rest of it.
-/

import VmkDrivers.Wfs.BertCommand

namespace VmkDrivers.Wfs.Wfsctl

open VmkDrivers.Lib

inductive CmdFault where
  /-- A text is longer than its buffer. -/
  | overflow
  /-- There is no room in `cmdargv`. -/
  | cmdargv
  | noHandler
  /-- There is no entry with the index. -/
  | noArgument (index : Nat)
deriving DecidableEq, Repr

inductive ArgRole where
  | wfsid
  | pattern
  | size
  | bandwidth
  | sec
deriving DecidableEq, Repr

/-! ## The handlers -/

/-- An entry of `argv` that is read. -/
structure ArgRead where
  index : Nat
  role : ArgRole
  text : List Char
deriving DecidableEq, Repr

abbrev Handled (α : Type) := Except CmdFault (List ArgRead × Except String α)

section Handlers

variable {α β : Type}

/-- `argv[index]` -/
def readArg (argv : List (List Char)) (index : Nat) (role : ArgRole)
    (k : List Char → Handled α) : Handled α :=
  match argv[index]? with
  | none => .error (.noArgument index)
  | some text => (k text).map fun r => (⟨index, role, text⟩ :: r.1, r.2)

def check (e : Except String β) (k : β → Handled α) : Handled α :=
  match e with
  | .error message => .ok ([], .error message)
  | .ok b => k b

def checkWfsid (arg : List Char) : Except String Int :=
  let val := getnum arg 10
  (refuseIf (val < 0 ∨ val < wfsidMin.toNat ∨ val > wfsidMax.toNat) "wfsid" arg).map fun _ => val

/-- `cmd_show_bert_result`, up to its request -/
def cmdShowBertResult (argv : List (List Char)) : Handled Int :=
  readArg argv 0 .wfsid fun arg => check (checkWfsid arg) fun wfsid => .ok ([], .ok wfsid)

/-- `cmd_show_bert`, up to its requests: the workstation, and the interval. -/
def cmdShowBert (argc : Nat) (argv : List (List Char)) : Handled (Int × Int) :=
  readArg argv 0 .wfsid fun arg => check (checkWfsid arg) fun wfsid =>
    if argc = 2 then
      readArg argv 1 .sec fun arg => check (intervalArg (some arg)) fun _ =>
        .ok ([], .ok (wfsid, getnum arg 10))
    else .ok ([], .ok (wfsid, 0))

/-- `bertcfg`, as `cmd_bert` fills it in -/
def bertcfg (wfsid : Int) (flag : UInt8) (pattern size bandwidth : Int) : WfsctlBertCfg where
  onoff := 1
  wfsid := UInt8.ofInt wfsid
  pktPatternFlag := flag
  pktPattern := UInt8.ofInt pattern
  pktSize := (UInt16.ofInt size).toUInt32
  bandwidth := UInt32.ofInt bandwidth

/-- `cmd_bert`, up to its first request. -/
def cmdBert (rand argc : Nat) (argv : List (List Char)) : Handled WfsctlBertCfg :=
  readArg argv 0 .wfsid fun arg => check (checkWfsid arg) fun wfsid =>
  readArg argv 1 .pattern fun arg => check (patternArg rand arg) fun (flag, pattern) =>
  readArg argv 2 .size fun arg =>
    let size := getnum arg 10
    check (refuseIf (size ≤ 0 ∨ size > bertDataSizeMax) "data size" arg) fun _ =>
  readArg argv 3 .bandwidth fun arg =>
    let bandwidth := getbw arg
    check (refuseIf (bandwidth ≤ 0) "bandwidth" arg) fun _ =>
  let cfg := bertcfg wfsid flag pattern size bandwidth
  if argc = 5 then
    readArg argv 4 .sec fun arg => check (intervalArg (some arg)) fun _ => .ok ([], .ok cfg)
  else .ok ([], .ok cfg)

end Handlers

inductive Handler where
  | topMenuHelp
  | showMenuHelp
  | showPeers
  | showFib
  | showBert
  | showBertResult
  | bert
deriving DecidableEq, Repr

/-- What a handler reads of its arguments; `rand` is what `rand()` returns. -/
def Handler.run (rand argc : Nat) (argv : List (List Char)) :
    Handler → Except CmdFault (List ArgRead)
  | .topMenuHelp | .showMenuHelp | .showPeers | .showFib => .ok []
  | .showBert => (cmdShowBert argc argv).map Prod.fst
  | .showBertResult => (cmdShowBertResult argv).map Prod.fst
  | .bert => (cmdBert rand argc argv).map Prod.fst

/-! ## The menus -/

inductive MenuType where
  | submenu
  | menucmd
deriving DecidableEq, Repr

inductive Menu where
  | topMenu
  | showMenu
  | showBertMenu
  | cmdBertMenu
deriving DecidableEq, Repr

/-- `struct command`, without its texts -/
structure Command where
  name : List Char
  type : MenuType
  submenu : Option Menu
  handler : Option Handler
  nargs : Nat
  arglist : List ArgRole
deriving DecidableEq, Repr

def Menu.commands : Menu → List Command
  | .topMenu =>
    [⟨['h', 'e', 'l', 'p'], .menucmd, none, some .topMenuHelp, 0, []⟩,
      ⟨['s', 'h', 'o', 'w'], .submenu, some .showMenu, none, 0, []⟩,
      ⟨['b', 'e', 'r', 't'], .menucmd, some .cmdBertMenu, some .bert, 4,
        [.wfsid, .pattern, .size, .bandwidth]⟩]
  | .showMenu =>
    [⟨['h', 'e', 'l', 'p'], .menucmd, none, some .showMenuHelp, 0, []⟩,
      ⟨['p', 'e', 'e', 'r', 's'], .menucmd, none, some .showPeers, 0, []⟩,
      ⟨['f', 'i', 'b'], .menucmd, none, some .showFib, 0, []⟩,
      ⟨['b', 'e', 'r', 't'], .menucmd, some .showBertMenu, some .showBert, 1, [.wfsid]⟩]
  | .showBertMenu =>
    [⟨['i', 'n', 't', 'e', 'r', 'v', 'a', 'l'], .menucmd, none, some .showBert, 1, [.sec]⟩,
      ⟨['r', 'e', 's', 'u', 'l', 't'], .menucmd, none, some .showBertResult, 0, []⟩]
  | .cmdBertMenu =>
    [⟨['i', 'n', 't', 'e', 'r', 'v', 'a', 'l'], .menucmd, none, some .bert, 1, [.sec]⟩]

def commandParse (menu : Menu) (token : List Char) : Option Command :=
  menu.commands.find? fun cmd => token = cmd.name

def Menu.depth : Menu → Nat
  | .topMenu => 2
  | .showMenu => 1
  | .showBertMenu | .cmdBertMenu => 0

variable {menu menu' : Menu} {cmd : Command} {token : List Char}

theorem mem_of_commandParse (h : commandParse menu token = some cmd) :
    cmd ∈ menu.commands ∧ cmd.name = token := by
  have hname : token = cmd.name := by simpa using List.find?_some h
  exact ⟨List.mem_of_find?_eq_some h, hname.symm⟩

theorem depth_lt (h : commandParse menu token = some cmd) (hsub : cmd.submenu = some menu') :
    menu'.depth < menu.depth := by
  have hall : ∀ cmd ∈ menu.commands, ∀ menu' ∈ cmd.submenu, menu'.depth < menu.depth := by
    cases menu <;> decide
  exact hall cmd (mem_of_commandParse h).1 menu' hsub

/-! ## The line -/

/-- What `main` has taken up: `cmdline`, and the first `cmdargc` entries of `cmdargv`. -/
structure Line where
  cmdline : List Char
  cmdargv : List (List Char)
deriving DecidableEq, Repr

/-- `sprintf` into a buffer of `size` bytes; the last one is for the NUL. -/
def store (size : Nat) (text : List Char) : Except CmdFault (List Char) :=
  if text.length < size then .ok text else .error .overflow

namespace Line

/-- `sprintf(cmdline, "%s %s", cmdline, token)` -/
def append (l : Line) (token : List Char) : Except CmdFault Line := do
  let cmdline ← store 256 (l.cmdline ++ ' ' :: token)
  return { l with cmdline := cmdline }

/-- `cmdargv[cmdargc] = arg`, and `cmdargc++` -/
def addArg (l : Line) (arg : List Char) : Except CmdFault Line :=
  if l.cmdargv.length < 16 then .ok { l with cmdargv := l.cmdargv ++ [arg] }
  else .error .cmdargv

end Line

/-- The arguments of a keyword: what is left of `nargs`, the line, and the tokens behind. -/
def takeArgs : Nat → Line → List (List Char) → Except CmdFault (Nat × Line × List (List Char))
  | 0, l, argv => .ok (0, l, argv)
  | nargs + 1, l, [] => .ok (nargs + 1, l, [])
  | nargs + 1, l, arg :: argv => do
    let l ← l.append arg
    let l ← l.addArg arg
    takeArgs nargs l argv

inductive Parsed where
  /-- A token that is no keyword of its menu. -/
  | invalid (l : Line) (token : List Char)
  /-- The last keyword, how many arguments it lacks, and the tokens behind. -/
  | ended (l : Line) (cmd : Command) (nargs : Nat) (argv : List (List Char))
deriving DecidableEq, Repr

/-- The loop of `main`, in a menu, with the next token and those behind it. -/
def parseCommands (menu : Menu) (l : Line) (token : List Char) (argv : List (List Char)) :
    Except CmdFault Parsed := do
  let l ← l.append token
  match _hcmd : commandParse menu token with
  | none => return .invalid l token
  | some cmd =>
    let (nargs, l, argv) ←
      if cmd.type = .menucmd then takeArgs cmd.nargs l argv else pure (cmd.nargs, l, argv)
    -- `while (argc && menu)`
    match _hsub : cmd.submenu, argv with
    | some submenu, token :: argv => parseCommands submenu l token argv
    | _, argv => return .ended l cmd nargs argv
termination_by menu.depth
decreasing_by exact depth_lt _hcmd _hsub

inductive Outcome where
  | version
  | usage
  | cantOpen
  | invalidCommand (cmdline token : List Char)
  | extraToken (cmdline token : List Char)
  | incomplete (cmdline : List Char) (cmd : Command)
  | commandHelp (cmdline : List Char) (cmd : Command)
  | wrongArguments (cmdline : List Char) (cmd : Command)
  /-- The handler, what it was given, and what it has read of it. -/
  | called (handler : Handler) (cmdargv : List (List Char)) (reads : List ArgRead)
deriving DecidableEq, Repr

/-- `main`, behind its loop -/
def finish (rand : Nat) (showHelpOnly : Bool) : Parsed → Except CmdFault Outcome
  | .invalid l token => .ok (.invalidCommand l.cmdline token)
  | .ended l _ _ (token :: _) => .ok (.extraToken l.cmdline token)
  | .ended l cmd nargs [] =>
    if cmd.type = .submenu then .ok (.incomplete l.cmdline cmd)
    else if showHelpOnly then .ok (.commandHelp l.cmdline cmd)
    else if cmd.type = .menucmd ∧ nargs > 0 then .ok (.wrongArguments l.cmdline cmd)
    else
      match cmd.handler with
      | none => .error .noHandler
      | some handler => do
        let reads ← handler.run rand l.cmdargv.length l.cmdargv
        return .called handler l.cmdargv reads

/-- The options, up to the end or to one that ends `main`: whether help is asked for. -/
def parseOptions (showHelpOnly : Bool) : List Char → Except Outcome Bool
  | [] => .ok showHelpOnly
  | f :: fs =>
    if f = 'h' then parseOptions true fs
    else if f = 'v' then .error .version
    else .error .usage

def devPath : List Char := ['/', 'd', 'e', 'v', '/']

def progName : List Char := ['w', 'f', 's', 'c', 't', 'l', ' ']

/-- `main`, with the options that `getopt_long` returns, what is behind them, and whether the device
    can be opened. -/
def main (rand : Nat) (opens : Bool) (options : List Char) (argv : List (List Char)) :
    Except CmdFault Outcome :=
  match parseOptions false options with
  | .error outcome => .ok outcome
  | .ok showHelpOnly =>
    match argv with
    | [] | [_] => .ok .usage
    | myDevName :: token :: argv => do
      if showHelpOnly = false then
        -- `dev_open`
        let _ ← store 32 (devPath ++ myDevName)
      if showHelpOnly = false ∧ opens = false then return .cantOpen
      else
        let cmdline ← store 256 (progName ++ myDevName)
        let parsed ← parseCommands .topMenu ⟨cmdline, []⟩ token argv
        finish rand showHelpOnly parsed

/-! ## What is promised -/

/-- The arguments in a line, each with what the entry of its keyword announces it as. -/
inductive Announced : Menu → List (List Char) → List (ArgRole × List Char) → Prop
  | last {menu : Menu} {cmd : Command} {args : List (List Char)} (hmem : cmd ∈ menu.commands)
      (hargs : args.length = cmd.arglist.length) :
      Announced menu (cmd.name :: args) (cmd.arglist.zip args)
  | sub {menu submenu : Menu} {cmd : Command} {args rest : List (List Char)}
      {announced : List (ArgRole × List Char)} (hmem : cmd ∈ menu.commands)
      (hargs : args.length = cmd.arglist.length) (hsub : cmd.submenu = some submenu)
      (hrest : Announced submenu rest announced) :
      Announced menu (cmd.name :: args ++ rest) (cmd.arglist.zip args ++ announced)

/-- Nothing goes wrong; and a handler that is called is given the arguments of the line, at most 16,
    and reads each entry as what it was announced as. -/
def Sound (rand : Nat) (opens : Bool) (options : List Char) (argv : List (List Char)) : Prop :=
  ∃ outcome, main rand opens options argv = .ok outcome ∧
    ∀ handler cmdargv reads, outcome = .called handler cmdargv reads →
      cmdargv.length ≤ 16 ∧ ∃ announced, Announced .topMenu argv.tail announced ∧
        cmdargv = announced.map Prod.snd ∧
        ∀ r ∈ reads, r.index < cmdargv.length ∧ announced[r.index]? = some (r.role, r.text)

/-! ## The lines that fit -/

/-- What the loop takes up: the keywords down to the last menu, or to a token that is none, and
    their arguments. -/
def takenUp (menu : Menu) (token : List Char) (argv : List (List Char)) : List (List Char) :=
  match _hcmd : commandParse menu token with
  | none => [token]
  | some cmd =>
    token :: argv.take cmd.nargs ++
      match _hsub : cmd.submenu, argv.drop cmd.nargs with
      | some submenu, token :: argv => takenUp submenu token argv
      | _, _ => []
termination_by menu.depth
decreasing_by exact depth_lt _hcmd _hsub

def textLength (tokens : List (List Char)) : Nat := (tokens.map fun token => token.length + 1).sum

/-- The path of the device fits, where it is opened, and so does the line, where it goes on. -/
def Fits (opens : Bool) (options : List Char) (argv : List (List Char)) : Prop :=
  match parseOptions false options, argv with
  | .ok showHelpOnly, myDevName :: token :: argv =>
    (showHelpOnly = false → myDevName.length ≤ 26) ∧
      (showHelpOnly = true ∨ opens = true →
        7 + myDevName.length + textLength (takenUp .topMenu token argv) ≤ 255)
  | _, _ => True

/-! ## The menus down -/

def Menu.above : Menu → List ArgRole
  | .topMenu | .showMenu => []
  | .showBertMenu => [.wfsid]
  | .cmdBertMenu => [.wfsid, .pattern, .size, .bandwidth]

theorem nargs_eq (h : cmd ∈ menu.commands) : cmd.nargs = cmd.arglist.length := by
  have hall : ∀ cmd ∈ menu.commands, cmd.nargs = cmd.arglist.length := by
    cases menu <;> decide
  exact hall cmd h

theorem nargs_of_submenu (h : cmd ∈ menu.commands) (htype : cmd.type ≠ .menucmd) :
    cmd.nargs = 0 := by
  have hall : ∀ cmd ∈ menu.commands, cmd.type ≠ .menucmd → cmd.nargs = 0 := by
    cases menu <;> decide
  exact hall cmd h htype

theorem above_submenu (h : cmd ∈ menu.commands) (hsub : cmd.submenu = some menu') :
    menu'.above = menu.above ++ cmd.arglist := by
  have hall : ∀ cmd ∈ menu.commands, ∀ menu' ∈ cmd.submenu,
      menu'.above = menu.above ++ cmd.arglist := by
    cases menu <;> decide
  exact hall cmd h menu' hsub

theorem above_length (h : cmd ∈ menu.commands) : menu.above.length + cmd.arglist.length ≤ 16 := by
  have hall : ∀ cmd ∈ menu.commands, menu.above.length + cmd.arglist.length ≤ 16 := by
    cases menu <;> decide
  exact hall cmd h

/-! ## What the handlers read -/

def ReadsAs (roles : List ArgRole) (args : List (List Char)) (reads : List ArgRead) : Prop :=
  ∀ r ∈ reads, roles[r.index]? = some r.role ∧ args[r.index]? = some r.text

variable {α β : Type} {roles : List ArgRole} {args : List (List Char)} {result : Except String α}
  {argv' : List (List Char)} (rand : Nat)

def Takes (roles : List ArgRole) (args : List (List Char)) (result : Except String α)
    (h : Handled α) : Prop :=
  ∃ reads, h = .ok (reads, result) ∧ ReadsAs roles args reads

theorem takes_done (result : Except String α) : Takes roles args result (.ok ([], result)) :=
  ⟨[], rfl, nofun⟩

theorem takes_readArg {i : Nat} {role : ArgRole} {arg : List Char} {k : List Char → Handled α}
    (hrole : roles[i]? = some role) (harg : args[i]? = some arg)
    (hk : Takes roles args result (k arg)) : Takes roles args result (readArg args i role k) := by
  obtain ⟨reads, hk, hreads⟩ := hk
  refine ⟨⟨i, role, arg⟩ :: reads, ?_, fun r hr => ?_⟩
  · rw [readArg, harg]
    simp only [hk]
    rfl
  · rcases List.mem_cons.mp hr with rfl | hr
    · exact ⟨hrole, harg⟩
    · exact hreads r hr

theorem takes_check {e : Except String β} {k : β → Handled α} {result : β → Except String α}
    (hk : ∀ b, Takes roles args (result b) (k b)) :
    Takes roles args (e >>= result) (check e k) := by
  cases e with
  | error message => exact takes_done _
  | ok b => exact hk b

theorem cmdBert_eq (a b c d : List Char) (interval : Option (List Char)) :
    Wfs.cmdBert rand ⟨a, b, c, d, interval⟩ =
      checkWfsid a >>= fun wfsid => patternArg rand b >>= fun pattern =>
        refuseIf (getnum c 10 ≤ 0 ∨ getnum c 10 > bertDataSizeMax) "data size" c >>= fun _ =>
        refuseIf (getbw d ≤ 0) "bandwidth" d >>= fun _ => intervalArg interval >>= fun _ =>
          .ok (bertcfg wfsid pattern.1 pattern.2 (getnum c 10) (getbw d)) := by
  rw [checkWfsid, Wfs.cmdBert]
  dsimp only
  rcases refuseIf _ "wfsid" a with message | _ <;> rfl

theorem cmdShowBert_takes (a : List Char) :
    Takes [.wfsid] [a] (checkWfsid a >>= fun wfsid => .ok (wfsid, 0)) (cmdShowBert 1 [a]) := by
  refine takes_readArg rfl rfl (takes_check fun wfsid => ?_)
  rw [if_neg (by decide)]
  exact takes_done _

theorem cmdShowBert_interval_takes (a b : List Char) :
    Takes [.wfsid, .sec] [a, b]
      (checkWfsid a >>= fun wfsid => intervalArg (some b) >>= fun _ => .ok (wfsid, getnum b 10))
      (cmdShowBert 2 [a, b]) := by
  refine takes_readArg rfl rfl (takes_check fun wfsid => ?_)
  rw [if_pos rfl]
  exact takes_readArg rfl rfl (takes_check fun _ => takes_done _)

theorem cmdShowBertResult_takes (a : List Char) :
    Takes [.wfsid] [a] (checkWfsid a >>= fun wfsid => .ok wfsid) (cmdShowBertResult [a]) :=
  takes_readArg rfl rfl (takes_check fun _ => takes_done _)

theorem cmdBert_takes (a b c d : List Char) :
    Takes [.wfsid, .pattern, .size, .bandwidth] [a, b, c, d] (Wfs.cmdBert rand ⟨a, b, c, d, none⟩)
      (cmdBert rand 4 [a, b, c, d]) := by
  rw [cmdBert_eq]
  refine takes_readArg rfl rfl (takes_check fun wfsid => ?_)
  refine takes_readArg rfl rfl (takes_check fun pattern => ?_)
  refine takes_readArg rfl rfl (takes_check fun _ => ?_)
  refine takes_readArg rfl rfl (takes_check fun _ => ?_)
  dsimp only
  rw [if_neg (by decide)]
  exact takes_done _

theorem cmdBert_interval_takes (a b c d e : List Char) :
    Takes [.wfsid, .pattern, .size, .bandwidth, .sec] [a, b, c, d, e]
      (Wfs.cmdBert rand ⟨a, b, c, d, some e⟩) (cmdBert rand 5 [a, b, c, d, e]) := by
  rw [cmdBert_eq]
  refine takes_readArg rfl rfl (takes_check fun wfsid => ?_)
  refine takes_readArg rfl rfl (takes_check fun pattern => ?_)
  refine takes_readArg rfl rfl (takes_check fun _ => ?_)
  refine takes_readArg rfl rfl (takes_check fun _ => ?_)
  dsimp only
  rw [if_pos rfl]
  exact takes_readArg rfl rfl (takes_check fun _ => takes_done _)

/-- The handler of a keyword reads what it and the keywords above it announce. -/
def Handler.Serves (handler : Handler) (roles : List ArgRole) : Prop :=
  ∀ rand (args : List (List Char)), args.length = roles.length →
    ∃ reads, handler.run rand args.length args = .ok reads ∧ ReadsAs roles args reads

theorem Takes.run {h : Handled α} (htakes : Takes roles args result h) :
    ∃ reads, h.map Prod.fst = .ok reads ∧ ReadsAs roles args reads := by
  obtain ⟨reads, rfl, hreads⟩ := htakes
  exact ⟨reads, rfl, hreads⟩

theorem helpHandler_serves {handler : Handler} (h : ∀ rand argc argv,
    handler.run rand argc argv = .ok []) : handler.Serves [] :=
  fun rand args _ => ⟨[], h rand args.length args, nofun⟩

theorem showBert_serves : Handler.showBert.Serves [.wfsid] := by
  intro rand args hlength
  obtain ⟨a, rfl⟩ := List.length_eq_one_iff.mp hlength
  exact (cmdShowBert_takes a).run

theorem showBertResult_serves : Handler.showBertResult.Serves [.wfsid] := by
  intro rand args hlength
  obtain ⟨a, rfl⟩ := List.length_eq_one_iff.mp hlength
  exact (cmdShowBertResult_takes a).run

theorem showBert_interval_serves : Handler.showBert.Serves [.wfsid, .sec] := by
  intro rand args hlength
  obtain ⟨a, b, rfl⟩ := List.length_eq_two.mp hlength
  exact (cmdShowBert_interval_takes a b).run

theorem bert_serves : Handler.bert.Serves [.wfsid, .pattern, .size, .bandwidth] := by
  intro rand args hlength
  match args, hlength with
  | [a, b, c, d], _ => exact (cmdBert_takes rand a b c d).run

theorem bert_interval_serves : Handler.bert.Serves [.wfsid, .pattern, .size, .bandwidth, .sec] := by
  intro rand args hlength
  match args, hlength with
  | [a, b, c, d, e], _ => exact (cmdBert_interval_takes rand a b c d e).run

theorem handler_serves (h : cmd ∈ menu.commands) (htype : cmd.type = .menucmd) :
    ∃ handler, cmd.handler = some handler ∧ handler.Serves (menu.above ++ cmd.arglist) := by
  cases menu with
  | topMenu =>
    rcases List.mem_cons.mp h with rfl | h
    · exact ⟨_, rfl, helpHandler_serves fun _ _ _ => rfl⟩
    rcases List.mem_cons.mp h with rfl | h
    · cases htype
    · obtain rfl := List.mem_singleton.mp h
      exact ⟨_, rfl, bert_serves⟩
  | showMenu =>
    rcases List.mem_cons.mp h with rfl | h
    · exact ⟨_, rfl, helpHandler_serves fun _ _ _ => rfl⟩
    rcases List.mem_cons.mp h with rfl | h
    · exact ⟨_, rfl, helpHandler_serves fun _ _ _ => rfl⟩
    rcases List.mem_cons.mp h with rfl | h
    · exact ⟨_, rfl, helpHandler_serves fun _ _ _ => rfl⟩
    · obtain rfl := List.mem_singleton.mp h
      exact ⟨_, rfl, showBert_serves⟩
  | showBertMenu =>
    rcases List.mem_cons.mp h with rfl | h
    · exact ⟨_, rfl, showBert_interval_serves⟩
    · obtain rfl := List.mem_singleton.mp h
      exact ⟨_, rfl, showBertResult_serves⟩
  | cmdBertMenu =>
    obtain rfl := List.mem_singleton.mp h
    exact ⟨_, rfl, bert_interval_serves⟩

/-! ## What is taken up -/

variable {l : Line} {argv tokens : List (List Char)} {size : Nat} {text : List Char}

theorem store_of_lt (h : text.length < size) : store size text = .ok text := if_pos h

theorem store_of_le (h : size ≤ text.length) : store size text = .error .overflow :=
  if_neg (by omega)

def Line.takeUp (l : Line) (tokens args : List (List Char)) : Line where
  cmdline := l.cmdline ++ tokens.flatMap (' ' :: ·)
  cmdargv := l.cmdargv ++ args

theorem Line.takeUp_length (l : Line) (tokens args : List (List Char)) :
    (l.takeUp tokens args).cmdline.length = l.cmdline.length + textLength tokens := by
  simp [Line.takeUp, textLength, List.length_flatMap]

theorem textLength_cons (token : List Char) (tokens : List (List Char)) :
    textLength (token :: tokens) = token.length + 1 + textLength tokens := rfl

theorem textLength_append (tokens tokens' : List (List Char)) :
    textLength (tokens ++ tokens') = textLength tokens + textLength tokens' := by
  simp [textLength]

theorem Line.append_of_le (h : l.cmdline.length + (token.length + 1) ≤ 255) :
    l.append token = .ok (l.takeUp [token] []) := by
  rw [Line.append, store_of_lt (by simp; omega)]
  simp [Line.takeUp, pure, Except.pure]

theorem Line.append_of_lt (h : 255 < l.cmdline.length + (token.length + 1)) :
    l.append token = .error .overflow := by
  rw [Line.append, store_of_le (by simp; omega)]
  rfl

theorem Line.addArg_of_lt (h : l.cmdargv.length < 16) (arg : List Char) :
    l.addArg arg = .ok (l.takeUp [] [arg]) := by
  rw [Line.addArg, if_pos h]
  simp [Line.takeUp]

theorem Line.takeUp_takeUp (tokens' args args' : List (List Char)) :
    (l.takeUp tokens args).takeUp tokens' args' = l.takeUp (tokens ++ tokens') (args ++ args') := by
  simp [Line.takeUp]

theorem takeArgs_eq (nargs : Nat) (l : Line) (argv : List (List Char))
    (hroom : l.cmdargv.length + nargs ≤ 16) (hline : l.cmdline.length ≤ 255) :
    takeArgs nargs l argv =
      if l.cmdline.length + textLength (argv.take nargs) ≤ 255 then
        .ok (nargs - argv.length, l.takeUp (argv.take nargs) (argv.take nargs), argv.drop nargs)
      else .error .overflow := by
  induction nargs generalizing l argv with
  | zero => simp [takeArgs, textLength, Line.takeUp, hline]
  | succ nargs ih =>
    cases argv with
    | nil => simp [takeArgs, textLength, Line.takeUp, hline]
    | cons arg argv =>
      rw [takeArgs, List.take_succ_cons, List.drop_succ_cons, textLength_cons]
      -- the induction is on the number that is still to be taken
      by_cases hfit : l.cmdline.length + (arg.length + 1) ≤ 255
      · have hlength := l.takeUp_length [arg] [arg]
        rw [textLength_cons, show textLength [] = 0 from rfl] at hlength
        rw [Line.append_of_le hfit, ok_bind,
          Line.addArg_of_lt (by simp [Line.takeUp]; omega), ok_bind, Line.takeUp_takeUp]
        rw [ih (l.takeUp ([arg] ++ []) ([] ++ [arg])) argv (by simp [Line.takeUp]; omega)
          (by simpa using by omega)]
        simp only [List.append_nil, List.nil_append, hlength, Line.takeUp_takeUp,
          List.singleton_append, List.length_cons, Nat.add_sub_add_right, Nat.add_zero,
          Nat.add_assoc]
      · rw [Line.append_of_lt (by omega), if_neg (by omega)]
        rfl

def goOn (cmd : Command) (r : Nat × Line × List (List Char)) : Except CmdFault Parsed :=
  match cmd.submenu, r.2.2 with
  | some submenu, token :: argv => parseCommands submenu r.2.1 token argv
  | _, argv => .ok (.ended r.2.1 cmd r.1 argv)

theorem parseCommands_none (h : commandParse menu token = none) :
    parseCommands menu l token argv = (l.append token).map fun l => .invalid l token := by
  rw [parseCommands]
  rcases l.append token with fault | l
  · rfl
  · rw [ok_bind]
    split
    · rfl
    · next heq => exact absurd (h.symm.trans heq) (by simp)

theorem parseCommands_some (h : commandParse menu token = some cmd) :
    parseCommands menu l token argv =
      l.append token >>= fun l => takeArgs cmd.nargs l argv >>= goOn cmd := by
  rw [parseCommands]
  rcases l.append token with fault | l
  · rfl
  rw [ok_bind, ok_bind]
  split
  · next heq => exact absurd (heq.symm.trans h) (by simp)
  · next cmd' heq =>
    obtain rfl := Option.some.inj (heq.symm.trans h)
    have hgo : ∀ r : Nat × Line × List (List Char), (match _hsub : cmd'.submenu, r.2.2 with
        | some submenu, token :: argv => parseCommands submenu r.2.1 token argv
        | _, argv => pure (.ended r.2.1 cmd' r.1 argv)) = goOn cmd' r := fun r => by
      rw [goOn]
      split
      · next hsub hrest => rw [hsub, hrest]
      · next hnone =>
        split
        · next hsub hrest => exact absurd hrest (hnone _ _ _ hsub)
        · rfl
    dsimp only
    split
    · rcases takeArgs cmd'.nargs l argv with fault | r
      · rfl
      · exact hgo r
    · -- a submenu has no arguments
      next htype =>
      rw [nargs_of_submenu (mem_of_commandParse h).1 htype]
      have htake : takeArgs 0 l argv = .ok (0, l, argv) := by cases argv <;> rfl
      rw [htake]
      exact hgo (0, l, argv)

theorem takenUp_none (h : commandParse menu token = none) : takenUp menu token argv = [token] := by
  rw [takenUp]
  split
  · rfl
  · next heq => exact absurd (h.symm.trans heq) (by simp)

def takenBehind (cmd : Command) (argv : List (List Char)) : List (List Char) :=
  match cmd.submenu, argv.drop cmd.nargs with
  | some submenu, token :: argv => takenUp submenu token argv
  | _, _ => []

theorem takenUp_some (h : commandParse menu token = some cmd) :
    takenUp menu token argv = token :: argv.take cmd.nargs ++ takenBehind cmd argv := by
  rw [takenUp]
  split
  · next heq => exact absurd (heq.symm.trans h) (by simp)
  · next cmd' heq =>
    obtain rfl := Option.some.inj (heq.symm.trans h)
    congr 1
    rw [takenBehind]
    split
    · next hsub hdrop => rw [hsub, hdrop]
    · next hnone =>
      split
      · next hsub hdrop => exact absurd hdrop (hnone _ _ _ hsub)
      · rfl

/-- What the loop leaves: where nothing is missing, the arguments of the line behind those that were
    stored before. -/
def Parsed.Good (menu : Menu) (stored tokens : List (List Char)) : Parsed → Prop
  | .invalid _ _ => True
  | .ended l cmd nargs rest => nargs = 0 → rest = [] →
      ∃ (menu' : Menu) (announced : List (ArgRole × List Char)), cmd ∈ menu'.commands ∧
        Announced menu tokens announced ∧ l.cmdargv = stored ++ announced.map Prod.snd ∧
        menu'.above ++ cmd.arglist = menu.above ++ announced.map Prod.fst

theorem length_take_of_drop {token' : List Char} (hmem : cmd ∈ menu.commands)
    (hdrop : argv.drop cmd.nargs = token' :: argv') :
    (argv.take cmd.nargs).length = cmd.arglist.length := by
  have hnargs := nargs_eq hmem
  have hmore := congrArg List.length hdrop
  simp only [List.length_drop, List.length_cons] at hmore
  rw [List.length_take]
  omega

theorem stored_submenu {token' : List Char} (hmem : cmd ∈ menu.commands)
    (hsub : cmd.submenu = some menu') (hdrop : argv.drop cmd.nargs = token' :: argv')
    (hargs : l.cmdargv.length = menu.above.length) (tokens : List (List Char)) :
    (l.takeUp tokens (argv.take cmd.nargs)).cmdargv.length = menu'.above.length := by
  simp only [Line.takeUp, List.length_append, length_take_of_drop hmem hdrop,
    above_submenu hmem hsub, hargs]

theorem parseCommands_ok (menu : Menu) (l : Line) (token : List Char) (argv : List (List Char))
    (hargs : l.cmdargv.length = menu.above.length)
    (hfit : l.cmdline.length + textLength (takenUp menu token argv) ≤ 255) :
    ∃ p, parseCommands menu l token argv = .ok p ∧ p.Good menu l.cmdargv (token :: argv) := by
  cases hcmd : commandParse menu token with
  -- a token that is no keyword is taken up all the same
  | none =>
    rw [takenUp_none hcmd, textLength_cons] at hfit
    rw [parseCommands_none hcmd, Line.append_of_le (by omega)]
    exact ⟨_, rfl, trivial⟩
  | some cmd =>
    obtain ⟨hmem, hname⟩ := mem_of_commandParse hcmd
    have hroom := above_length hmem
    have hnargs := nargs_eq hmem
    rw [takenUp_some hcmd, List.cons_append, textLength_cons, textLength_append] at hfit
    have hlength := l.takeUp_length [token] []
    rw [textLength_cons, show textLength [] = 0 from rfl] at hlength
    rw [parseCommands_some hcmd, Line.append_of_le (by omega), ok_bind,
      takeArgs_eq cmd.nargs (l.takeUp [token] []) argv (by simp [Line.takeUp]; omega) (by omega),
      if_pos (by omega), ok_bind, Line.takeUp_takeUp, goOn]
    have hlength' := l.takeUp_length (token :: argv.take cmd.nargs) (argv.take cmd.nargs)
    rw [textLength_cons] at hlength'
    -- the arguments and their roles go side by side
    have hroles : ∀ args : List (List Char), args.length = cmd.arglist.length →
        (cmd.arglist.zip args).map Prod.fst = cmd.arglist ∧
          (cmd.arglist.zip args).map Prod.snd = args := fun args hlen =>
      ⟨List.map_fst_zip hlen.ge, List.map_snd_zip hlen.le⟩
    unfold takenBehind at hfit
    split
    · -- the next menu, behind all arguments of the keyword
      next submenu token' argv' hsub hdrop =>
      change argv.drop cmd.nargs = token' :: argv' at hdrop
      rw [hsub, hdrop] at hfit
      dsimp only at hfit
      have habove := above_submenu hmem hsub
      have hlen := length_take_of_drop hmem hdrop
      have hargs' := stored_submenu hmem hsub hdrop hargs (token :: argv.take cmd.nargs)
      have hlt := depth_lt hcmd hsub
      obtain ⟨p, hp, hgood⟩ := parseCommands_ok submenu _ token' argv' hargs' (by omega)
      refine ⟨p, hp, ?_⟩
      cases p with
      | invalid l' bad => exact trivial
      | ended l' cmd' nargs rest =>
        intro hnargs' hrest
        obtain ⟨menu', announced, hmem', hannounced, hstored, habove'⟩ := hgood hnargs' hrest
        refine ⟨menu', cmd.arglist.zip (argv.take cmd.nargs) ++ announced, hmem', ?_, ?_, ?_⟩
        -- the line is the keyword, its arguments, and what the submenu has taken
        · have hline : token :: argv = cmd.name :: argv.take cmd.nargs ++ token' :: argv' := by
            rw [← hdrop, hname, List.cons_append, List.take_append_drop]
          exact hline ▸ .sub hmem hlen hsub hannounced
        · rw [hstored, List.map_append, (hroles _ hlen).2, ← List.append_assoc]
          rfl
        · rw [habove', habove, List.map_append, (hroles _ hlen).1, List.append_assoc]
    · -- the last keyword
      refine ⟨_, rfl, fun hnargs' hrest => ?_⟩
      -- none is missing and none is left over
      have hlen : argv.length = cmd.arglist.length := by
        have hno := congrArg List.length hrest
        simp only [List.length_drop, List.length_nil] at hno
        omega
      have htake : argv.take cmd.nargs = argv := List.take_of_length_le (by omega)
      refine ⟨menu, cmd.arglist.zip argv, hmem, hname ▸ .last hmem hlen, ?_, ?_⟩
      · rw [(hroles argv hlen).2]
        simp only [Line.takeUp, htake, List.nil_append]
      · rw [(hroles argv hlen).1]
termination_by menu.depth

theorem parseCommands_overflow (menu : Menu) (l : Line) (token : List Char)
    (argv : List (List Char)) (hargs : l.cmdargv.length = menu.above.length)
    (hlong : 255 < l.cmdline.length + textLength (takenUp menu token argv)) :
    parseCommands menu l token argv = .error .overflow := by
  cases hcmd : commandParse menu token with
  | none =>
    rw [takenUp_none hcmd, textLength_cons, show textLength [] = 0 from rfl] at hlong
    rw [parseCommands_none hcmd, Line.append_of_lt (by omega)]
    rfl
  | some cmd =>
    obtain ⟨hmem, hname⟩ := mem_of_commandParse hcmd
    have hroom := above_length hmem
    have hnargs := nargs_eq hmem
    rw [takenUp_some hcmd, List.cons_append, textLength_cons, textLength_append] at hlong
    have hlength := l.takeUp_length [token] []
    rw [textLength_cons, show textLength [] = 0 from rfl] at hlength
    rw [parseCommands_some hcmd]
    -- the text may be too long with the keyword, with an argument, or behind them
    by_cases htoken : l.cmdline.length + (token.length + 1) ≤ 255
    · rw [Line.append_of_le htoken, ok_bind, takeArgs_eq cmd.nargs (l.takeUp [token] []) argv
        (by simp [Line.takeUp]; omega) (by omega)]
      by_cases htake : (l.takeUp [token] []).cmdline.length +
          textLength (argv.take cmd.nargs) ≤ 255
      · -- the text that is too long is behind
        rw [if_pos htake, ok_bind, Line.takeUp_takeUp, goOn]
        have hlength' := l.takeUp_length (token :: argv.take cmd.nargs) (argv.take cmd.nargs)
        rw [textLength_cons] at hlength'
        unfold takenBehind at hlong
        split
        · next submenu token' argv' hsub hdrop =>
          change argv.drop cmd.nargs = token' :: argv' at hdrop
          rw [hsub, hdrop] at hlong
          dsimp only at hlong
          have hlt := depth_lt hcmd hsub
          apply parseCommands_overflow submenu _ token' argv'
          · exact stored_submenu hmem hsub hdrop hargs _
          · simp only [List.singleton_append, List.nil_append]
            omega
        · next hnone =>
          split at hlong
          · next hsub hdrop => exact absurd hdrop (hnone _ _ _ hsub)
          · rw [show textLength [] = 0 from rfl] at hlong
            omega
      · rw [if_neg htake]
        rfl
    · rw [Line.append_of_lt (by omega)]
      rfl
termination_by menu.depth

/-! ## The whole line -/

theorem finish_ok (showHelpOnly : Bool) {p : Parsed} (hgood : p.Good .topMenu [] tokens) :
    ∃ outcome, finish rand showHelpOnly p = .ok outcome ∧
      ∀ handler cmdargv reads, outcome = .called handler cmdargv reads →
        cmdargv.length ≤ 16 ∧ ∃ announced, Announced .topMenu tokens announced ∧
          cmdargv = announced.map Prod.snd ∧
          ∀ r ∈ reads, r.index < cmdargv.length ∧ announced[r.index]? = some (r.role, r.text) := by
  rcases p with ⟨l, token⟩ | ⟨l, cmd, nargs, rest⟩
  · exact ⟨_, rfl, nofun⟩
  cases rest with
  | cons token rest => exact ⟨_, rfl, nofun⟩
  | nil =>
    rw [finish]
    -- help, a keyword without its command, and missing arguments end in a message
    split
    · exact ⟨_, rfl, nofun⟩
    split
    · exact ⟨_, rfl, nofun⟩
    split
    · exact ⟨_, rfl, nofun⟩
    next hsubmenu _ hmissing =>
    have htype : cmd.type = .menucmd := by
      cases htype : cmd.type with
      | submenu => exact absurd htype hsubmenu
      | menucmd => rfl
    have hnargs : nargs = 0 := by
      by_contra hne
      exact hmissing ⟨htype, Nat.pos_of_ne_zero hne⟩
    obtain ⟨menu', announced, hmem, hannounced, hstored, habove⟩ := hgood hnargs rfl
    rw [List.nil_append] at hstored
    change _ = [] ++ announced.map Prod.fst at habove
    rw [List.nil_append] at habove
    obtain ⟨handler, hhandler, hserves⟩ := handler_serves hmem htype
    have hlength : l.cmdargv.length = (menu'.above ++ cmd.arglist).length := by
      rw [hstored, habove, List.length_map, List.length_map]
    obtain ⟨reads, hrun, hreads⟩ := hserves rand l.cmdargv hlength
    rw [hhandler]
    dsimp only
    rw [hrun]
    refine ⟨_, rfl, fun handler' cmdargv reads' hcalled => ?_⟩
    obtain ⟨-, rfl, rfl⟩ := Outcome.called.inj hcalled
    refine ⟨?_, announced, hannounced, hstored, fun r hr => ?_⟩
    · rw [hlength, List.length_append]
      exact above_length hmem
    -- a read is of an argument that was announced, and of its role
    · obtain ⟨hrole, htext⟩ := hreads r hr
      refine ⟨(List.getElem?_eq_some_iff.mp htext).1, ?_⟩
      rw [habove, List.getElem?_map, Option.map_eq_some_iff] at hrole
      rw [hstored, List.getElem?_map, Option.map_eq_some_iff] at htext
      obtain ⟨a, ha, hrole⟩ := hrole
      obtain ⟨b, hb, htext⟩ := htext
      obtain rfl := Option.some.inj (ha.symm.trans hb)
      rw [ha, ← hrole, ← htext]

theorem parseOptions_not_called {options : List Char} {showHelpOnly : Bool} {outcome : Outcome}
    (h : parseOptions showHelpOnly options = .error outcome) :
    outcome = .version ∨ outcome = .usage := by
  induction options generalizing showHelpOnly with
  | nil => cases h
  | cons f fs ih =>
    rw [parseOptions] at h
    split at h
    · exact ih h
    split at h
    · exact .inl (Except.error.inj h).symm
    · exact .inr (Except.error.inj h).symm

theorem sound_of_line (showHelpOnly : Bool) (myDevName token : List Char)
    (argv : List (List Char)) :
    (∃ outcome, (do
        let cmdline ← store 256 (progName ++ myDevName)
        let parsed ← parseCommands .topMenu ⟨cmdline, []⟩ token argv
        finish rand showHelpOnly parsed) = .ok outcome ∧
      ∀ handler cmdargv reads, outcome = .called handler cmdargv reads →
        cmdargv.length ≤ 16 ∧ ∃ announced, Announced .topMenu (token :: argv) announced ∧
          cmdargv = announced.map Prod.snd ∧
          ∀ r ∈ reads, r.index < cmdargv.length ∧ announced[r.index]? = some (r.role, r.text)) ↔
      7 + myDevName.length + textLength (takenUp .topMenu token argv) ≤ 255 := by
  have hlength : (progName ++ myDevName).length = 7 + myDevName.length := List.length_append
  constructor
  · rintro ⟨outcome, hline, -⟩
    by_contra hlong
    by_cases hname : 7 + myDevName.length < 256
    · rw [store_of_lt (by omega), ok_bind, parseCommands_overflow .topMenu _ token argv rfl
        (by dsimp only; omega)] at hline
      cases hline
    -- the name of the device fills `cmdline` by itself
    · rw [store_of_le (by omega)] at hline
      cases hline
  · intro hfit
    obtain ⟨p, hp, hgood⟩ := parseCommands_ok .topMenu ⟨progName ++ myDevName, []⟩ token argv rfl
      (by dsimp only; omega)
    rw [store_of_lt (by omega), ok_bind, hp, ok_bind]
    exact finish_ok rand showHelpOnly hgood

/-- **A command line** is handled soundly exactly if its texts fit their buffers. -/
theorem command_line_iff (rand : Nat) (opens : Bool) (options : List Char)
    (argv : List (List Char)) : Sound rand opens options argv ↔ Fits opens options argv := by
  unfold Sound Fits main
  cases hoptions : parseOptions false options with
  -- the version or the help: nothing is stored
  | error outcome =>
    refine iff_of_true ⟨outcome, rfl, fun handler cmdargv reads hcalled => ?_⟩ trivial
    rcases parseOptions_not_called hoptions with rfl | rfl
    · cases hcalled
    · cases hcalled
  | ok showHelpOnly =>
    match argv with
    | [] => exact iff_of_true ⟨_, rfl, nofun⟩ trivial
    | [_] => exact iff_of_true ⟨_, rfl, nofun⟩ trivial
    | myDevName :: token :: argv =>
      have hline := sound_of_line rand showHelpOnly myDevName token argv
      have hpath : (devPath ++ myDevName).length = 5 + myDevName.length := List.length_append
      cases showHelpOnly with
      | true => simpa using hline
      | false =>
        by_cases hname : myDevName.length ≤ 26
        · have hopen : store 32 (devPath ++ myDevName) = .ok (devPath ++ myDevName) :=
            store_of_lt (by omega)
          simp only [if_true, hopen, ok_bind]
          cases opens with
          | true => simpa [hname] using hline
          | false => simpa [hname] using ⟨Outcome.cantOpen, rfl, nofun⟩
        -- the path is stored before the device is opened
        · have hopen : store 32 (devPath ++ myDevName) = .error .overflow := store_of_le (by omega)
          refine iff_of_false ?_ fun hfits => hname (hfits.1 rfl)
          rintro ⟨outcome, herror, -⟩
          simp only [if_true, hopen] at herror
          cases herror

theorem main_of_long (h : commandParse .topMenu token = none) (hlong : 247 < token.length) :
    main 0 true [] [['v'], token] = .error .overflow := by
  change (parseCommands .topMenu ⟨progName ++ ['v'], []⟩ token [] >>= finish 0 false) = _
  rw [parseCommands_none h, Line.append_of_lt (by simp [progName]; omega)]
  rfl

/-- A token of 250 bytes, and a device of 27. -/
theorem command_line_long :
    ¬Sound 0 true [] [['v'], List.replicate 250 'a'] ∧
      ¬Sound 0 true [] [List.replicate 27 'a', ['h', 'e', 'l', 'p']] := by
  constructor
  · rintro ⟨outcome, hmain, -⟩
    rw [main_of_long (by decide) (by rw [List.length_replicate]; decide)] at hmain
    cases hmain
  · rintro ⟨outcome, hmain, -⟩
    have hopen : store 32 (devPath ++ List.replicate 27 'a') = .error .overflow :=
      store_of_le (by decide)
    simp only [main, parseOptions, if_true, hopen] at hmain
    cases hmain

end VmkDrivers.Wfs.Wfsctl
