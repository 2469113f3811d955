import TuyaOpen.Cli.ParseBuffer
import Mathlib.Logic.Function.Basic

/-!
# The keys of the command line

`cli_task` of `tal_cli.c` reads keys and edits the line in `cli->buffer` with two positions of 16
bits: `index`, where the line ends, and `insert`, where the cursor is. The lines that have been
entered are kept in a ring of `CLI_HISTORY_NUM` buffers with four counters.

An access that leaves its buffer has no result. What is printed is left out, and so are the commands
that a line runs.
-/

namespace TuyaOpen.Cli

/-- `CLI_BUFFER_SIZE`. -/
def cliBufferSize : Nat := 1000

/-- `CLI_HISTORY_NUM`. -/
def cliHistoryNum : Nat := 8

/-- A `uint16_t` that is decremented. -/
def u16Pred (n : Nat) : Nat := if n = 0 then 65535 else n - 1

/-- A difference that is passed as a `size_t`. -/
def sizeT (n : Int) : Nat := (n % 4294967296).toNat

/-! ### Strings and memory -/

def store (mem : Bytes) (pos : Nat) (c : UInt8) : Option Bytes := memcpy mem pos [c]

/-- `memmove` within a buffer. -/
def memmove (mem : Bytes) (dst src : Nat) (n : Int) : Option Bytes :=
  (readSpan mem src (sizeT n)).bind fun xs => memcpy mem dst xs

/-- `strcpy` to the start of a buffer. -/
def strcpy (mem src : Bytes) : Option Bytes :=
  if 0 ∈ src then memcpy mem 0 (cString src ++ [0]) else none

/-- Whether `strcmp` finds two strings equal. -/
def strcmpEq (s t : Bytes) : Option Bool :=
  if 0 ∈ s ∧ 0 ∈ t then some (decide (cString s = cString t)) else none

/-- Whether `strncmp` finds two strings equal. -/
def strncmpEq : Nat → Bytes → Bytes → Bool
  | 0, _, _ => true
  | n + 1, a :: s, b :: t => a == b && (a == 0 || strncmpEq n s t)
  | _ + 1, _, _ => false

/-- A text that fits into the buffer of the command line with its terminator: the name of a command,
or a line. -/
@[ext] structure Line where
  text : Bytes
  zero_notMem : 0 ∉ text
  length_le : text.length ≤ cliBufferSize

instance : DecidableEq Line := fun l l' => decidable_of_iff (l.text = l'.text) Line.ext_iff.symm

/-! ### The data -/

/-- `cli_history_t`. -/
structure CliHistory where
  writeIndex : Nat
  writeCount : Nat
  readIndex : Nat
  readCount : Nat
  data : Fin cliHistoryNum → Bytes

/-- The fields of `cli_t` that the keys change. -/
structure CliState where
  index : Nat
  insert : Nat
  history : CliHistory
  buffer : Bytes

/-- The command line that `tal_cli_init_with_uart` has cleared. -/
def cliInit : CliState where
  index := 0
  insert := 0
  history := ⟨0, 0, 0, 0, fun _ => List.replicate (cliBufferSize + 1) 0⟩
  buffer := List.replicate (cliBufferSize + 1) 0

variable (history : CliHistory) (cli : CliState)

/-! ### The history -/

/-- `history->data[i]`. -/
def CliHistory.get? (i : Nat) : Option Bytes :=
  if h : i < cliHistoryNum then some (history.data ⟨i, h⟩) else none

/-- `cli_histroy_data_perv`: the data is at `read_index` then. -/
def cliHistroyDataPerv : Bool × CliHistory :=
  if history.readCount = 0 then (false, history)
  else
    let readIndex :=
      if history.readCount ≠ history.writeCount then
        u16Pred (if history.readIndex = 0 then cliHistoryNum else history.readIndex)
      else history.readIndex
    (true, { history with readIndex := readIndex, readCount := u16Pred history.readCount })

/-- `cli_histroy_data_next`: the data is at `read_index` then. -/
def cliHistroyDataNext : Bool × CliHistory :=
  if history.writeCount ≤ history.readCount + 1 then (false, history)
  else
    let readIndex := history.readIndex + 1
    (true,
      { history with
        readIndex := if cliHistoryNum = readIndex then 0 else readIndex
        readCount := history.readCount + 1 })

def CliHistory.rewind : CliHistory :=
  { history with readCount := history.writeCount, readIndex := u16Pred history.writeIndex }

/-- Whether the line in the buffer is the latest one already, in `cli_histroy_data_save`. -/
def duplicate (buffer : Bytes) : Option Bool :=
  let r := cliHistroyDataPerv history.rewind
  if r.1 then (r.2.get? r.2.readIndex).bind fun data => strcmpEq buffer data else some false

/-- The rest of `cli_histroy_data_save` for a line that is not. -/
def CliHistory.append (buffer : Bytes) (index : Nat) : Option CliHistory :=
  let writeIndex := if cliHistoryNum ≤ history.writeIndex then 0 else history.writeIndex
  let writeCount :=
    if history.writeCount < cliHistoryNum then history.writeCount + 1 else history.writeCount
  if h : writeIndex < cliHistoryNum then
    (readSpan buffer 0 (index + 1)).bind fun line =>
      (memcpy (history.data ⟨writeIndex, h⟩) 0 line).map fun data =>
        { writeIndex := writeIndex + 1
          writeCount := writeCount
          readIndex := writeIndex
          readCount := writeCount
          data := Function.update history.data ⟨writeIndex, h⟩ data }
  else none

/-- `cli_histroy_data_save`. -/
def cliHistroyDataSave (buffer : Bytes) (index : Nat) : Option CliHistory :=
  (duplicate history buffer).bind fun dup =>
    if dup then some history.rewind else history.append buffer index

/-! ### The keys -/

/-- The commands whose names start with the line, in `cli_table_key`. -/
def matches? (names : List Line) : List Line :=
  names.filter fun name => strncmpEq cli.index (name.text ++ [0]) cli.buffer

/-- `cli_table_key`, with the names of the commands in the order of the tables: `count` is how many
of them match, and `match_cmd` is the last that does. -/
def cliTableKey (names : List Line) : Option CliState :=
  if cli.index = 0 then some cli
  else
    match matches? cli names with
    | [] => some { cli with insert := cli.index }
    | [matchCmd] =>
      (strcpy cli.buffer (matchCmd.text ++ [0])).map fun buffer =>
        let index := (cString buffer).length
        { cli with buffer := buffer, index := index, insert := index }
    | _ => some cli

/-- `cli_enter_key`. -/
def cliEnterKey : Option CliState :=
  if cli.index = 0 then some cli
  else
    (store cli.buffer cli.index 0).bind fun buffer =>
      (cliHistroyDataSave cli.history buffer cli.index).bind fun history =>
        (cliParseBuffer (2 * buffer.length + 1) buffer).map fun _ =>
          { index := 0
            insert := 0
            history := history
            buffer := List.replicate (cliBufferSize + 1) 0 }

/-- `cli_backspace_key`. -/
def cliBackspaceKey : Option CliState :=
  let index := u16Pred cli.index
  let insert := u16Pred cli.insert
  if cli.index = 0 then some cli
  else if cli.insert < cli.index then
    (memmove cli.buffer insert (insert + 1) (index - insert)).bind fun buffer =>
      (store buffer index 0).map fun buffer =>
        { cli with index := index, insert := insert, buffer := buffer }
  else
    (store cli.buffer insert 0).map fun buffer =>
      { cli with index := index, insert := insert, buffer := buffer }

/-- The part of `cli_up_key` and `cli_down_key` that shows a line of the history. -/
def recallLine (r : Bool × CliHistory) : Option CliState :=
  if r.1 then
    (r.2.get? r.2.readIndex).bind fun data =>
      (strcpy cli.buffer data).bind fun buffer =>
        let index := (cString buffer).length
        (store buffer index 0).map fun buffer =>
          { index := index, insert := index, history := r.2, buffer := buffer }
  else some { cli with history := r.2 }

/-- `cli_up_key`. -/
def cliUpKey : Option CliState := recallLine cli (cliHistroyDataPerv cli.history)

/-- `cli_down_key`. -/
def cliDownKey : Option CliState := recallLine cli (cliHistroyDataNext cli.history)

/-- `cli_letf_key`. -/
def cliLetfKey : CliState := if cli.insert ≠ 0 then { cli with insert := cli.insert - 1 } else cli

/-- `cli_right_key`. -/
def cliRightKey : CliState :=
  if cli.insert < cli.index then { cli with insert := cli.insert + 1 } else cli

/-- The characters that `cli_task` takes for data. -/
def IsData (data : UInt8) : Prop := 32 ≤ data ∧ data ≤ 127

instance (data : UInt8) : Decidable (IsData data) := inferInstanceAs (Decidable (_ ∧ _))

/-- A character in `cli_task`. -/
def cliData (data : UInt8) : Option CliState :=
  if ¬IsData data then some cli
  else if cliBufferSize - 1 < cli.index then some cli
  else if cli.insert ≠ cli.index then
    (memmove cli.buffer (cli.insert + 1) cli.insert (cli.index - cli.insert)).bind fun buffer =>
      (store buffer cli.insert data).map fun buffer =>
        { cli with index := cli.index + 1, insert := cli.insert + 1, buffer := buffer }
  else
    (store cli.buffer cli.index data).map fun buffer =>
      { cli with index := cli.index + 1, insert := cli.index + 1, buffer := buffer }

inductive Key
  | data (c : UInt8)
  | table
  | enter
  | backspace
  | up
  | down
  | letf
  | right

/-- What can be seen of the line: both positions and the characters in front of the first. -/
structure View where
  index : Nat
  insert : Nat
  text : Bytes
  deriving DecidableEq

def CliState.view : View := ⟨cli.index, cli.insert, cli.buffer.take cli.index⟩

/-- `cli_key_app`, and a character in `cli_task`. -/
def cliKeyApp (names : List Line) : Key → Option CliState
  | .data c => cliData cli c
  | .table => cliTableKey cli names
  | .enter => cliEnterKey cli
  | .backspace => cliBackspaceKey cli
  | .up => cliUpKey cli
  | .down => cliDownKey cli
  | .letf => some (cliLetfKey cli)
  | .right => some (cliRightKey cli)

def cliKey (names : List Line) (cli : CliState) (key : Key) : Option (View × CliState) :=
  (cliKeyApp cli names key).map fun cli => (cli.view, cli)

end TuyaOpen.Cli
