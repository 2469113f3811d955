import TuyaOpen.Basic.Transition
import TuyaOpen.Basic.Window
import TuyaOpen.Cli.Keys

/-!
# The command line is a line editor with history

The editor has a line that is cut at its cursor, the list of the lines that have been entered, and
how far back one of them is shown. The keys of `tal_cli.c` show what the editor shows, with two
exceptions: the backspace key at column 0 of a line that is not empty decrements the position of the
cursor below zero, and the tab key on an empty line lists the commands, even if there is only one.

## Main results

* `Keeps.perv`, `Keeps.next`, `Keeps.save`: the functions of the history.
* `Shows.cliKeyApp`: what a key does.
* `cliKey_eq_editKey_iff`: the runs in which the command line is a line editor.
-/

namespace TuyaOpen.Cli

/-! ### The editor -/

def Line.empty : Line := ⟨[], List.not_mem_nil, Nat.zero_le _⟩

structure CursorLine where
  before : Bytes
  after : Bytes
  zero_notMem : 0 ∉ before ++ after
  length_le : (before ++ after).length ≤ cliBufferSize

namespace CursorLine

variable (l : CursorLine)

def line : Line := ⟨l.before ++ l.after, l.zero_notMem, l.length_le⟩

def ofLine (line : Line) : CursorLine where
  before := line.text
  after := []
  zero_notMem := by simpa using line.zero_notMem
  length_le := by simpa using line.length_le

def insert (c : UInt8) : CursorLine :=
  if h : IsData c ∧ (l.before ++ l.after).length < cliBufferSize then
    { before := l.before ++ [c]
      after := l.after
      zero_notMem := by
        have hc : (0 : UInt8) ≠ c := fun hzero => absurd (hzero ▸ h.1.1) (by decide)
        simpa [hc] using l.zero_notMem
      length_le := by
        have := h.2
        simp only [List.length_append, List.length_singleton] at this ⊢
        omega }
  else l

def backspace : CursorLine where
  before := l.before.dropLast
  after := l.after
  zero_notMem := fun h => l.zero_notMem <| by
    rcases List.mem_append.1 h with h | h
    · exact List.mem_append_left _ (List.mem_of_mem_dropLast h)
    · exact List.mem_append_right _ h
  length_le := by
    have := l.length_le
    simp only [List.length_append, List.length_dropLast] at this ⊢
    omega

def move (before after : Bytes) (h : before ++ after = l.before ++ l.after) : CursorLine where
  before := before
  after := after
  zero_notMem := h ▸ l.zero_notMem
  length_le := h ▸ l.length_le

def left : CursorLine :=
  if h : l.before ≠ [] then
    l.move l.before.dropLast (l.before.getLast h :: l.after)
      ((List.append_cons _ _ _).trans
        (congrArg (· ++ l.after) (List.dropLast_append_getLast h)))
  else l

def right : CursorLine :=
  if h : l.after ≠ [] then
    l.move (l.before ++ [l.after.head h]) l.after.tail
      ((List.append_cons _ _ _).symm.trans
        (congrArg (l.before ++ ·) (List.cons_head_tail h)))
  else l

end CursorLine

/-- The editor. The lines that have been entered stand in the order of their entering, and `back` is
how many lines back the line is that is shown, or 0. -/
structure Editor where
  line : CursorLine
  entered : List Line
  back : Nat
  back_le : back ≤ min entered.length cliHistoryNum

namespace Editor

variable (e : Editor)

def init : Editor := ⟨.ofLine .empty, [], 0, Nat.zero_le _⟩

def complete (names : List Line) : Editor :=
  match names.filter fun name => e.line.line.text.isPrefixOf name.text with
  | [] => { e with line := .ofLine e.line.line }
  | [name] => { e with line := .ofLine name }
  | _ => e

def enter : Editor :=
  if e.line.line.text = [] then e
  else
    { line := .ofLine .empty
      entered :=
        if e.entered.getLast? = some e.line.line then e.entered else e.entered ++ [e.line.line]
      back := 0
      back_le := Nat.zero_le _ }

def recallLine (back : Nat) (hpos : 0 < back) (hle : back ≤ min e.entered.length cliHistoryNum) :
    Editor where
  line := .ofLine (e.entered.get ⟨e.entered.length - back, by omega⟩)
  entered := e.entered
  back := back
  back_le := hle

def up : Editor :=
  if h : e.back < min e.entered.length cliHistoryNum then
    e.recallLine (e.back + 1) (Nat.succ_pos _) h
  else e

def down : Editor :=
  if h : 1 < e.back then
    e.recallLine (e.back - 1) (Nat.sub_pos_of_lt h) ((Nat.sub_le _ _).trans e.back_le)
  else e

def edit (names : List Line) : Key → Editor
  | .data c => { e with line := e.line.insert c }
  | .table => e.complete names
  | .enter => e.enter
  | .backspace => { e with line := e.line.backspace }
  | .up => e.up
  | .down => e.down
  | .letf => { e with line := e.line.left }
  | .right => { e with line := e.line.right }

def view : View :=
  ⟨(e.line.before ++ e.line.after).length, e.line.before.length, e.line.before ++ e.line.after⟩

end Editor

def editKey (names : List Line) (e : Editor) (key : Key) : View × Editor :=
  ((e.edit names key).view, e.edit names key)

/-! ### The history -/

section History

variable {history : CliHistory} {entered : List Line} {back : Nat} {line : Line}
  {buffer rest data : Bytes}

instance : NeZero cliHistoryNum := ⟨by decide⟩

structure Stores (data text : Bytes) : Prop where
  terminated : 0 ∈ data
  length_eq : data.length = cliBufferSize + 1
  text_eq : cString data = text

/-- The ring holds the last of the lines that have been entered, and its reading position is at the
line that is shown. -/
structure Keeps (history : CliHistory) (entered : List Line) (back : Nat) : Prop where
  writeCount : history.writeCount = min entered.length cliHistoryNum
  writeIndex : history.writeIndex =
    if entered = [] then 0 else (entered.length - 1) % cliHistoryNum + 1
  readCount : history.readCount + back = history.writeCount
  readIndex : entered ≠ [] → history.readIndex = (entered.length - max 1 back) % cliHistoryNum
  stores : ∀ k, Stores (history.data k) (cString (history.data k))
  rotated : Rotated (fun k => cString (history.data k)) (entered.map Line.text)

theorem u16Pred_of_pos {n : Nat} (hpos : 0 < n) : u16Pred n = n - 1 :=
  if_neg (Nat.pos_iff_ne_zero.1 hpos)

theorem u16Pred_ring {n : Nat} (h : back < n) :
    u16Pred (if (n - back) % cliHistoryNum = 0 then cliHistoryNum
      else (n - back) % cliHistoryNum) = (n - (back + 1)) % cliHistoryNum := by
  split_ifs with hzero
  · rw [u16Pred_of_pos (by decide)]
    simp only [cliHistoryNum] at *
    omega
  · rw [u16Pred_of_pos (Nat.pos_of_ne_zero hzero)]
    simp only [cliHistoryNum] at *
    omega

theorem succ_ring {n : Nat} (hpos : 1 < back) (h : back ≤ n) :
    (if cliHistoryNum = (n - back) % cliHistoryNum + 1 then 0
      else (n - back) % cliHistoryNum + 1) = (n - (back - 1)) % cliHistoryNum := by
  split_ifs with hlast
  all_goals
    simp only [cliHistoryNum] at *
    omega

theorem Keeps.back_le (h : Keeps history entered back) : back ≤ min entered.length cliHistoryNum :=
  h.writeCount ▸ h.readCount ▸ Nat.le_add_left _ _

theorem Keeps.perv (h : Keeps history entered back)
    (hback : back < min entered.length cliHistoryNum) :
    ∃ history', cliHistroyDataPerv history = (true, history') ∧
      Keeps history' entered (back + 1) := by
  have hwrite := h.writeCount
  have hread := h.readCount
  have hne : entered ≠ [] := by
    rintro rfl
    simp at hback
  have hindex := h.readIndex hne
  have hpred : u16Pred history.readCount = history.readCount - 1 :=
    u16Pred_of_pos (by omega)
  refine ⟨_, if_neg (by omega), h.writeCount, h.writeIndex, ?_, fun _ => ?_, h.stores, h.rotated⟩
  · dsimp only
    omega
  · dsimp only
    rw [ite_not]
    by_cases hzero : back = 0
    · rw [if_pos (by omega), hindex, hzero]
      rfl
    · rw [if_neg (by omega), hindex, Nat.max_eq_right (by omega), Nat.max_eq_right (by omega)]
      exact u16Pred_ring (by omega)

theorem Keeps.perv_of_le (h : Keeps history entered back)
    (hback : min entered.length cliHistoryNum ≤ back) :
    cliHistroyDataPerv history = (false, history) := by
  have hwrite := h.writeCount
  have hread := h.readCount
  exact if_pos (by omega)

theorem Keeps.next (h : Keeps history entered back) (hback : 1 < back) :
    ∃ history', cliHistroyDataNext history = (true, history') ∧
      Keeps history' entered (back - 1) := by
  have hwrite := h.writeCount
  have hread := h.readCount
  have hne : entered ≠ [] := by
    rintro rfl
    rw [List.length_nil] at hwrite
    omega
  have hindex := h.readIndex hne
  refine ⟨_, if_neg (by omega), h.writeCount, h.writeIndex, ?_, fun _ => ?_, h.stores, h.rotated⟩
  · dsimp only
    omega
  · dsimp only
    rw [hindex, Nat.max_eq_right (by omega), Nat.max_eq_right (by omega)]
    exact succ_ring hback (by omega)

theorem Keeps.next_of_le (h : Keeps history entered back) (hback : back ≤ 1) :
    cliHistroyDataNext history = (false, history) := by
  have hread := h.readCount
  exact if_pos (by omega)

theorem Keeps.get? (h : Keeps history entered back) (hpos : 0 < back) :
    ∃ data, history.get? history.readIndex = some data ∧
      Stores data (entered.get ⟨entered.length - back, by have := h.back_le; omega⟩).text := by
  have hle := h.back_le
  have hlt : entered.length - back < entered.length := by omega
  have hindex : history.readIndex = (entered.length - back) % cliHistoryNum := by
    have hne : entered ≠ [] := by
      rintro rfl
      simp at hlt
    rw [h.readIndex hne, Nat.max_eq_right hpos]
  have hmod : history.readIndex < cliHistoryNum := hindex ▸ Nat.mod_lt _ (by decide)
  have hslot : (⟨history.readIndex, hmod⟩ : Fin cliHistoryNum) =
      Fin.ofNat cliHistoryNum (entered.length - back) := Fin.ext hindex
  have htext := h.rotated (entered.length - back) (by rwa [List.length_map])
    (by rw [List.length_map]; omega)
  obtain ⟨hzero, hlen, -⟩ := h.stores ⟨history.readIndex, hmod⟩
  refine ⟨_, dif_pos hmod, hzero, hlen, ?_⟩
  rw [hslot]
  exact htext.trans (List.getElem_map _)

theorem Keeps.rewind (h : Keeps history entered back) : Keeps history.rewind entered 0 := by
  refine ⟨h.writeCount, h.writeIndex, Nat.add_zero _, fun hne => ?_, h.stores, h.rotated⟩
  have hwrite := h.writeIndex
  rw [if_neg hne] at hwrite
  rw [CliHistory.rewind]
  dsimp only
  rw [hwrite, u16Pred_of_pos (Nat.succ_pos _)]
  rfl

theorem stores_append (line : Line) (hlen : (line.text ++ 0 :: rest).length = cliBufferSize + 1) :
    Stores (line.text ++ 0 :: rest) line.text :=
  ⟨List.mem_append_right _ List.mem_cons_self, hlen, cString_append_zero line.zero_notMem rest⟩

theorem Keeps.duplicate (h : Keeps history entered back) (hdata : Stores data line.text) :
    duplicate history data = some (decide (entered.getLast? = some line)) := by
  by_cases hne : entered = []
  · have hpair := h.rewind.perv_of_le (by simp [hne])
    rw [Cli.duplicate, hpair, if_neg Bool.false_ne_true, hne]
    rfl
  · have hpos : 0 < entered.length := List.length_pos_iff.2 hne
    obtain ⟨history', hpair, hkeeps⟩ := h.rewind.perv (lt_min hpos (by decide))
    obtain ⟨latest, hget, hlatest⟩ := hkeeps.get? Nat.one_pos
    have hlast : entered.getLast? =
        some (entered.get ⟨entered.length - 1, Nat.sub_lt hpos Nat.one_pos⟩) := by
      rw [List.getLast?_eq_getElem?, List.getElem?_eq_getElem (Nat.sub_lt hpos Nat.one_pos)]
      rfl
    rw [Cli.duplicate, hpair, if_pos rfl, hget, Option.bind_some, strcmpEq,
      if_pos ⟨hdata.terminated, hlatest.terminated⟩, hdata.text_eq, hlatest.text_eq, hlast]
    congr 2
    rw [Option.some.injEq, Line.ext_iff]
    exact propext eq_comm

theorem exists_memcpy_line (line : Line) (hdata : data.length = cliBufferSize + 1) :
    ∃ rest, memcpy data 0 (line.text ++ [0]) = some (line.text ++ 0 :: rest) ∧
      (line.text ++ 0 :: rest).length = cliBufferSize + 1 := by
  have hle : 0 + (line.text ++ [0]).length ≤ data.length := by
    have := line.length_le
    simp only [List.length_append, List.length_singleton]
    omega
  have hcopy := memcpy_of_le hle
  rw [List.take_zero, List.nil_append, ← List.append_cons] at hcopy
  exact ⟨_, hcopy, (length_of_memcpy hcopy).trans hdata⟩

theorem Keeps.append (h : Keeps history entered back) :
    ∃ history', history.append (line.text ++ 0 :: rest) line.text.length = some history' ∧
      Keeps history' (entered ++ [line]) 0 := by
  have hslot : (if cliHistoryNum ≤ history.writeIndex then 0 else history.writeIndex) =
      entered.length % cliHistoryNum := by
    have hwrite := h.writeIndex
    by_cases hne : entered = []
    · rw [hwrite, hne]
      rfl
    · have hpos : 0 < entered.length := List.length_pos_iff.2 hne
      rw [if_neg hne] at hwrite
      rw [hwrite]
      split_ifs with hlast
      all_goals
        simp only [cliHistoryNum] at *
        omega
  have hlt : entered.length % cliHistoryNum < cliHistoryNum := Nat.mod_lt _ (by decide)
  have hread : readSpan (line.text ++ 0 :: rest) 0 (line.text.length + 1) =
      some (line.text ++ [0]) := by
    rw [readSpan_of_le (by simp), slice_zero, List.append_cons, List.take_left' (by simp)]
  obtain ⟨rest', hcopy, hlen'⟩ :=
    exists_memcpy_line line (h.stores ⟨entered.length % cliHistoryNum, hlt⟩).length_eq
  have hstores := stores_append line hlen'
  have hwrite := h.writeCount
  have happend : history.append (line.text ++ 0 :: rest) line.text.length = some
      { writeIndex := entered.length % cliHistoryNum + 1
        writeCount :=
          if history.writeCount < cliHistoryNum then history.writeCount + 1 else history.writeCount
        readIndex := entered.length % cliHistoryNum
        readCount :=
          if history.writeCount < cliHistoryNum then history.writeCount + 1 else history.writeCount
        data := Function.update history.data ⟨entered.length % cliHistoryNum, hlt⟩
          (line.text ++ 0 :: rest') } := by
    simp only [CliHistory.append, hslot]
    rw [dif_pos hlt, hread, Option.bind_some, hcopy, Option.map_some]
  refine ⟨_, happend, ?_, ?_, rfl, fun _ => ?_, fun k => ?_, ?_⟩
  · dsimp only
    rw [List.length_append, List.length_singleton, hwrite]
    split_ifs <;> omega
  · dsimp only
    rw [if_neg (by simp), List.length_append, List.length_singleton, Nat.add_sub_cancel]
  · rw [List.length_append, List.length_singleton]
    rfl
  · dsimp only
    by_cases hk : k = ⟨entered.length % cliHistoryNum, hlt⟩
    · rw [hk, Function.update_self, hstores.text_eq]
      exact hstores
    · rw [Function.update_of_ne hk]
      exact h.stores k
  · have hupdate := h.rotated.update line.text
    rw [List.length_map] at hupdate
    rw [List.map_append, List.map_singleton]
    convert hupdate using 1
    have hcomp := Function.comp_update cString history.data
      ⟨entered.length % cliHistoryNum, hlt⟩ (line.text ++ 0 :: rest')
    rw [hstores.text_eq] at hcomp
    exact hcomp

/-- **Saving a line.** It becomes the latest line of the ring if it is not so already, and the
browsing starts at its end. -/
theorem Keeps.save (h : Keeps history entered back)
    (hlen : (line.text ++ 0 :: rest).length = cliBufferSize + 1) :
    ∃ history', cliHistroyDataSave history (line.text ++ 0 :: rest) line.text.length =
        some history' ∧
      Keeps history' (if entered.getLast? = some line then entered else entered ++ [line]) 0 := by
  rw [cliHistroyDataSave, h.duplicate (stores_append line hlen), Option.bind_some]
  by_cases hlast : entered.getLast? = some line
  · refine ⟨history.rewind, if_pos (decide_eq_true hlast), ?_⟩
    rw [if_pos hlast]
    exact h.rewind
  · obtain ⟨history', happend, hkeeps⟩ := @Keeps.append _ _ _ line rest h
    refine ⟨history', ?_, ?_⟩
    · rw [decide_eq_false hlast, if_neg Bool.false_ne_true, happend]
    · rw [if_neg hlast]
      exact hkeeps

end History

/-! ### The line -/

section Line

variable {cli : CliState} {l : CursorLine} {data : Bytes}

/-- The buffer and the two positions show a line with its cursor. -/
structure ShowsLine (cli : CliState) (l : CursorLine) : Prop where
  index : cli.index = l.before.length + l.after.length
  insert : cli.insert = l.before.length
  buffer : ∃ tail, cli.buffer = l.before ++ (l.after ++ tail)
  length_eq : cli.buffer.length = cliBufferSize + 1

theorem sizeT_sub {m n : Nat} (h : n ≤ m) (hlt : m < 4294967296) : sizeT (m - n) = m - n := by
  rw [sizeT]
  omega

theorem exists_memmove_right {mem before after tail : Bytes} {x : UInt8} {n : Int}
    (hmem : mem = before ++ (after ++ x :: tail)) (hn : sizeT n = after.length) :
    ∃ y, memmove mem (before.length + 1) before.length n =
      some (before ++ ([y] ++ (after ++ tail))) := by
  obtain ⟨y, mid, hmid⟩ : ∃ y mid, after ++ [x] = y :: mid :=
    List.exists_cons_of_ne_nil (by simp)
  have hread : readSpan mem before.length after.length = some after := by
    rw [readSpan_of_le (by rw [hmem]; simp)]
    exact congrArg some (slice_eq_of_append before (x :: tail) hmem rfl rfl)
  have hcopy := @memcpy_eq_of_append _ mem after (before.length + 1) (before ++ [y]) mid tail
    (by rw [hmem, List.append_cons after, hmid]; simp) (by simp)
    (by simpa using (congrArg List.length hmid).symm)
  refine ⟨y, ?_⟩
  rw [memmove, hn, hread, Option.bind_some, hcopy, List.append_assoc]

theorem exists_memmove_left {mem before after tail : Bytes} {x : UInt8} {n : Int}
    (hmem : mem = before ++ ([x] ++ (after ++ tail))) (hn : sizeT n = after.length) :
    ∃ y, memmove mem before.length (before.length + 1) n =
      some ((before ++ after) ++ ([y] ++ tail)) := by
  obtain ⟨mid, y, hmid⟩ : ∃ mid y, x :: after = mid ++ [y] :=
    (List.eq_nil_or_concat' (x :: after)).resolve_left (List.cons_ne_nil x after)
  have hread : readSpan mem (before.length + 1) after.length = some after := by
    rw [readSpan_of_le (by
      simp only [hmem, List.length_append, List.length_singleton]
      omega)]
    exact congrArg some (slice_eq_of_append (before ++ [x]) tail (by rw [hmem]; simp)
      (by simp) rfl)
  have hcopy := @memcpy_eq_of_append _ mem after before.length before mid ([y] ++ tail)
    (by rw [hmem, ← List.append_assoc [x], List.singleton_append, hmid, List.append_assoc]) rfl
    (by simpa using (congrArg List.length hmid).symm)
  refine ⟨y, ?_⟩
  rw [memmove, hn, hread, Option.bind_some, hcopy, List.append_assoc]

theorem store_eq (before tail : Bytes) (x c : UInt8) :
    store (before ++ ([x] ++ tail)) before.length c = some (before ++ ([c] ++ tail)) :=
  memcpy_eq_of_append before [x] tail rfl rfl rfl

theorem ShowsLine.cliData (h : ShowsLine cli l) (c : UInt8) :
    ∃ cli', Cli.cliData cli c = some cli' ∧ ShowsLine cli' (l.insert c) ∧
      cli'.history = cli.history := by
  obtain ⟨tail, hbuffer⟩ := h.buffer
  have hindex : cli.index = (l.before ++ l.after).length :=
    h.index.trans List.length_append.symm
  have hlen := h.length_eq
  rw [hbuffer, ← List.append_assoc, List.length_append, ← hindex] at hlen
  rw [Cli.cliData, CursorLine.insert]
  by_cases hc : IsData c
  swap
  · rw [if_pos hc, dif_neg fun hroom => hc hroom.1]
    exact ⟨cli, rfl, h, rfl⟩
  rw [if_neg (not_not_intro hc)]
  by_cases hroom : cli.index < cliBufferSize
  swap
  · rw [dif_neg fun h => hroom (hindex ▸ h.2),
      if_pos (Nat.lt_of_lt_of_le (by decide) (Nat.le_of_not_lt hroom))]
    exact ⟨cli, rfl, h, rfl⟩
  rw [dif_pos ⟨hc, hindex ▸ hroom⟩, if_neg (by omega)]
  obtain ⟨x, tail, rfl⟩ : ∃ x tail', tail = x :: tail' :=
    List.exists_cons_of_ne_nil fun hnil => by
      rw [hnil, List.length_nil] at hlen
      omega
  have hindex := h.index
  by_cases hafter : l.after = []
  · -- at the end of the line
    rw [hafter, List.nil_append] at hbuffer
    rw [hafter, List.length_nil, Nat.add_zero] at hindex
    have hstore : store cli.buffer cli.index c = some (l.before ++ ([c] ++ tail)) := by
      rw [hbuffer, hindex]
      exact store_eq l.before tail x c
    rw [if_neg (not_not_intro (h.insert.trans hindex.symm)), hstore]
    refine ⟨_, rfl, ⟨?_, ?_, ⟨tail, ?_⟩, ?_⟩, rfl⟩
    · simp [hafter, hindex]
    · simp [hindex]
    · simp [hafter]
    · exact (length_of_memcpy hstore).trans h.length_eq
  · -- within the line
    have hpos := List.length_pos_iff.2 hafter
    have hinsert := h.insert
    have hn : sizeT (cli.index - cli.insert) = l.after.length := by
      rw [sizeT_sub (by omega) (hroom.trans (by decide))]
      omega
    obtain ⟨y, hmove⟩ := exists_memmove_right hbuffer hn
    have hstore := store_eq l.before (l.after ++ tail) y c
    rw [← hinsert] at hmove hstore
    rw [if_pos (by omega), hmove, Option.bind_some, hstore]
    refine ⟨_, rfl, ⟨?_, ?_, ⟨tail, ?_⟩, ?_⟩, rfl⟩
    · simp only [hindex, List.length_append, List.length_singleton]
      omega
    · simp [hinsert]
    · simp
    · rw [← h.length_eq, hbuffer]
      simp only [List.length_append, List.length_cons, List.length_nil]
      omega

theorem ShowsLine.cliBackspaceKey (h : ShowsLine cli l) (hcond : cli.insert = 0 → cli.index = 0) :
    ∃ cli', Cli.cliBackspaceKey cli = some cli' ∧ ShowsLine cli' l.backspace ∧
      cli'.history = cli.history := by
  obtain ⟨tail, hbuffer⟩ := h.buffer
  have hindex := h.index
  have hinsert := h.insert
  by_cases hzero : cli.index = 0
  · have hbefore : l.before = [] := List.eq_nil_of_length_eq_zero (by omega)
    refine ⟨cli, if_pos hzero, ⟨?_, ?_, ⟨tail, ?_⟩, h.length_eq⟩, rfl⟩
    · simpa [CursorLine.backspace, hbefore] using hindex
    · simpa [CursorLine.backspace, hbefore] using hinsert
    · simpa [CursorLine.backspace, hbefore] using hbuffer
  obtain ⟨before, x, hbefore⟩ : ∃ before x, l.before = before ++ [x] :=
    (List.eq_nil_or_concat' l.before).resolve_left fun hnil => by
      rw [hnil, List.length_nil] at hinsert
      exact hzero (hcond hinsert)
  have hdrop : l.before.dropLast = before := by rw [hbefore, List.dropLast_concat]
  rw [hbefore, List.length_append, List.length_singleton] at hindex hinsert
  rw [hbefore, List.append_assoc] at hbuffer
  have hindex' : u16Pred cli.index = before.length + l.after.length := by
    rw [u16Pred_of_pos (by omega)]
    omega
  have hinsert' : u16Pred cli.insert = before.length := by
    rw [u16Pred_of_pos (by omega)]
    omega
  rw [Cli.cliBackspaceKey, if_neg hzero, hindex', hinsert']
  by_cases hafter : l.after = []
  · -- at the end of the line
    rw [hafter, List.length_nil, Nat.add_zero] at hindex
    rw [hafter, List.nil_append] at hbuffer
    have hstore : store cli.buffer before.length 0 = some (before ++ ([0] ++ tail)) := by
      rw [hbuffer]
      exact store_eq before tail x 0
    rw [if_neg (by omega), hstore]
    refine ⟨_, rfl, ⟨?_, ?_, ⟨[0] ++ tail, ?_⟩, ?_⟩, rfl⟩
    · simp [CursorLine.backspace, hdrop, hafter]
    · simp [CursorLine.backspace, hdrop]
    · simp [CursorLine.backspace, hdrop, hafter]
    · exact (length_of_memcpy hstore).trans h.length_eq
  · -- within the line
    have hpos := List.length_pos_iff.2 hafter
    have hn : sizeT ((before.length + l.after.length : Nat) - before.length) =
        l.after.length := by
      have hle := l.length_le
      rw [hbefore, List.length_append, List.length_append] at hle
      rw [sizeT_sub (by omega) (by simp only [cliBufferSize] at hle; omega)]
      omega
    obtain ⟨y, hmove⟩ := exists_memmove_left hbuffer hn
    have hstore := store_eq (before ++ l.after) tail y 0
    rw [List.length_append] at hstore
    rw [if_pos (by omega), hmove, Option.bind_some, hstore]
    refine ⟨_, rfl, ⟨?_, ?_, ⟨[0] ++ tail, ?_⟩, ?_⟩, rfl⟩
    · simp [CursorLine.backspace, hdrop]
    · simp [CursorLine.backspace, hdrop]
    · simp [CursorLine.backspace, hdrop]
    · rw [← h.length_eq, hbuffer]
      simp only [List.length_append, List.length_singleton]
      omega

theorem cliBackspaceKey_eq_none (hinsert : cli.insert = 0) (hindex : cli.index ≠ 0)
    (hlen : cli.buffer.length = cliBufferSize + 1) : Cli.cliBackspaceKey cli = none := by
  have hread : memmove cli.buffer (u16Pred cli.insert) (u16Pred cli.insert + 1)
      (u16Pred cli.index - u16Pred cli.insert) = none := by
    rw [memmove, readSpan_eq_none, Option.bind_none]
    rw [hlen, hinsert]
    exact (show cliBufferSize + 1 < u16Pred 0 + 1 by decide).trans_le (Nat.le_add_right _ _)
  rw [Cli.cliBackspaceKey, if_neg hindex, if_pos (by omega), hread, Option.bind_none]

theorem ShowsLine.cliLetfKey (h : ShowsLine cli l) :
    ShowsLine (Cli.cliLetfKey cli) l.left ∧ (Cli.cliLetfKey cli).history = cli.history := by
  obtain ⟨tail, hbuffer⟩ := h.buffer
  have hindex := h.index
  have hinsert := h.insert
  rw [Cli.cliLetfKey, CursorLine.left]
  by_cases hbefore : l.before = []
  · rw [hbefore, List.length_nil] at hinsert
    rw [dif_neg (not_not_intro hbefore), if_neg (not_not_intro hinsert)]
    exact ⟨h, rfl⟩
  · have hpos := List.length_pos_iff.2 hbefore
    rw [dif_pos hbefore, if_pos (by omega)]
    refine ⟨⟨?_, ?_, ⟨tail, ?_⟩, h.length_eq⟩, rfl⟩
    · simp only [CursorLine.move, List.length_dropLast, List.length_cons]
      omega
    · simp only [CursorLine.move, List.length_dropLast]
      omega
    · rw [hbuffer, CursorLine.move, List.cons_append, List.append_cons l.before.dropLast,
        List.dropLast_append_getLast]

theorem ShowsLine.cliRightKey (h : ShowsLine cli l) :
    ShowsLine (Cli.cliRightKey cli) l.right ∧ (Cli.cliRightKey cli).history = cli.history := by
  obtain ⟨tail, hbuffer⟩ := h.buffer
  have hindex := h.index
  have hinsert := h.insert
  rw [Cli.cliRightKey, CursorLine.right]
  by_cases hafter : l.after = []
  · rw [hafter, List.length_nil] at hindex
    rw [dif_neg (not_not_intro hafter), if_neg (by omega)]
    exact ⟨h, rfl⟩
  · have hpos := List.length_pos_iff.2 hafter
    rw [dif_pos hafter, if_pos (by omega)]
    refine ⟨⟨?_, ?_, ⟨tail, ?_⟩, h.length_eq⟩, rfl⟩
    · simp only [CursorLine.move, List.length_append, List.length_singleton, List.length_tail]
      omega
    · simp only [CursorLine.move, List.length_append, List.length_singleton]
      omega
    · rw [hbuffer, CursorLine.move, ← List.append_assoc, ← List.append_assoc, ← List.append_cons,
        List.cons_head_tail]

theorem showsLine_ofLine {line : Line} {rest : Bytes} (hindex : cli.index = line.text.length)
    (hinsert : cli.insert = line.text.length) (hbuffer : cli.buffer = line.text ++ rest)
    (hlen : cli.buffer.length = cliBufferSize + 1) : ShowsLine cli (.ofLine line) :=
  ⟨hindex, hinsert, ⟨rest, hbuffer⟩, hlen⟩

theorem exists_strcpy {mem : Bytes} {line : Line} (hzero : 0 ∈ data)
    (htext : cString data = line.text) (hmem : mem.length = cliBufferSize + 1) :
    ∃ rest, strcpy mem data = some (line.text ++ 0 :: rest) ∧
      (line.text ++ 0 :: rest).length = cliBufferSize + 1 := by
  obtain ⟨rest, hcopy, hlen⟩ := exists_memcpy_line line hmem
  refine ⟨rest, ?_, hlen⟩
  rw [strcpy, if_pos hzero, htext, hcopy]

theorem strncmpEq_eq_isPrefixOf {text : Bytes} (htext : 0 ∉ text) (name rest : Bytes) :
    strncmpEq text.length (name ++ [0]) (text ++ rest) = text.isPrefixOf name := by
  induction text generalizing name with
  | nil => rfl
  | cons b text ih =>
    have hb : b ≠ 0 := fun hzero => htext (hzero ▸ List.mem_cons_self)
    have ih := ih fun h => htext (List.mem_cons_of_mem b h)
    cases name with
    | nil => simp [strncmpEq, hb.symm]
    | cons a name =>
      rw [List.cons_append, List.cons_append, List.length_cons, strncmpEq, ih,
        List.isPrefixOf_cons_cons]
      by_cases hab : a = b
      · rw [hab, beq_eq_false_iff_ne.2 hb, Bool.false_or]
      · rw [beq_eq_false_iff_ne.2 hab, beq_eq_false_iff_ne.2 (Ne.symm hab), Bool.false_and,
          Bool.false_and]

end Line

/-! ### The keys -/

section Keys

variable {cli : CliState} {e : Editor} {names : List Line}

/-- The command line shows what the editor shows. -/
structure Shows (cli : CliState) (e : Editor) : Prop where
  line : ShowsLine cli e.line
  history : Keeps cli.history e.entered e.back

theorem shows_init : Shows cliInit .init := by
  refine ⟨⟨rfl, rfl, ⟨cliInit.buffer, rfl⟩, List.length_replicate⟩, rfl, rfl, rfl,
    fun hne => absurd rfl hne, fun k => ⟨?_, List.length_replicate, rfl⟩, rotated_nil⟩
  exact List.mem_replicate.2 ⟨by decide, rfl⟩

theorem Shows.view_eq (h : Shows cli e) : cli.view = e.view := by
  obtain ⟨tail, hbuffer⟩ := h.line.buffer
  have hindex : cli.index = (e.line.before ++ e.line.after).length :=
    h.line.index.trans List.length_append.symm
  rw [CliState.view, Editor.view, hindex, h.line.insert, hbuffer, ← List.append_assoc,
    List.take_left]

theorem Shows.matches_eq (h : Shows cli e) :
    matches? cli names = names.filter fun name => e.line.line.text.isPrefixOf name.text := by
  obtain ⟨tail, hbuffer⟩ := h.line.buffer
  have hindex : cli.index = e.line.line.text.length :=
    h.line.index.trans List.length_append.symm
  refine List.filter_congr fun name _ => ?_
  rw [hindex, hbuffer, ← List.append_assoc]
  exact strncmpEq_eq_isPrefixOf e.line.zero_notMem name.text tail

theorem Shows.text_eq_nil_iff (h : Shows cli e) : e.line.line.text = [] ↔ cli.index = 0 := by
  rw [h.line.index, ← List.length_append, List.length_eq_zero_iff]
  rfl

theorem Shows.cliTableKey (h : Shows cli e)
    (hcond : cli.index = 0 → ∀ name, names = [name] → name.text = []) :
    ∃ cli', Cli.cliTableKey cli names = some cli' ∧ Shows cli' (e.complete names) := by
  have hmatches := @Shows.matches_eq cli e names h
  obtain ⟨tail, hbuffer⟩ := h.line.buffer
  have hindex : cli.index = e.line.line.text.length :=
    h.line.index.trans List.length_append.symm
  rw [← List.append_assoc] at hbuffer
  by_cases hzero : cli.index = 0
  · have htext := h.text_eq_nil_iff.2 hzero
    have hall : (names.filter fun name => e.line.line.text.isPrefixOf name.text) = names :=
      List.filter_eq_self.2 fun name _ => by rw [htext]; rfl
    refine ⟨cli, if_pos hzero, ?_⟩
    rw [Editor.complete, hall]
    have hinsert : cli.insert = 0 := by
      have hle := h.line.index
      rw [← h.line.insert] at hle
      omega
    have hempty (line : Line) (hline : line.text = []) : ShowsLine cli (.ofLine line) :=
      showsLine_ofLine (by rw [hline, hzero]; rfl) (by rw [hline, hinsert]; rfl)
        (by rw [hline]; rfl) h.line.length_eq
    match names, hcond hzero with
    | [], _ => exact ⟨hempty _ htext, h.history⟩
    | [name], hname => exact ⟨hempty name (hname name rfl), h.history⟩
    | _ :: _ :: _, _ => exact h
  · rw [Cli.cliTableKey, if_neg hzero, hmatches, Editor.complete]
    generalize names.filter (fun name => e.line.line.text.isPrefixOf name.text) = matched
    match matched with
    | [] =>
      exact ⟨_, rfl, showsLine_ofLine hindex hindex hbuffer h.line.length_eq, h.history⟩
    | [name] =>
      have hname : cString (name.text ++ [0]) = name.text :=
        cString_append_zero name.zero_notMem []
      obtain ⟨rest, hcopy, hlen⟩ := exists_strcpy (by simp) hname h.line.length_eq
      have htext : cString (name.text ++ 0 :: rest) = name.text :=
        cString_append_zero name.zero_notMem rest
      dsimp only
      rw [hcopy]
      refine ⟨_, rfl, showsLine_ofLine ?_ ?_ rfl hlen, h.history⟩
      · dsimp only
        rw [htext]
      · dsimp only
        rw [htext]
    | _ :: _ :: _ => exact ⟨cli, rfl, h⟩

theorem Shows.recallLine (h : Shows cli e) {history : CliHistory} {back : Nat}
    (hkeeps : Keeps history e.entered back) (hpos : 0 < back) :
    ∃ cli', Cli.recallLine cli (true, history) = some cli' ∧
      Shows cli' (e.recallLine back hpos hkeeps.back_le) := by
  obtain ⟨data, hget, hdata⟩ := hkeeps.get? hpos
  obtain ⟨rest, hcopy, hlen⟩ := exists_strcpy hdata.terminated hdata.text_eq h.line.length_eq
  generalize hline : e.entered.get ⟨e.entered.length - back, _⟩ = line at hcopy hlen hdata
  have htext : cString (line.text ++ 0 :: rest) = line.text :=
    cString_append_zero line.zero_notMem rest
  have hstore := store_eq line.text rest 0 0
  rw [List.singleton_append] at hstore
  rw [Cli.recallLine, if_pos rfl, hget, Option.bind_some, hcopy, Option.bind_some]
  dsimp only
  rw [htext, hstore, Editor.recallLine, hline]
  exact ⟨_, rfl, showsLine_ofLine rfl rfl rfl hlen, hkeeps⟩

theorem Shows.cliUpKey (h : Shows cli e) :
    ∃ cli', Cli.cliUpKey cli = some cli' ∧ Shows cli' e.up := by
  rw [Cli.cliUpKey, Editor.up]
  by_cases hback : e.back < min e.entered.length cliHistoryNum
  · obtain ⟨history, hpair, hkeeps⟩ := h.history.perv hback
    rw [hpair, dif_pos hback]
    exact h.recallLine hkeeps (Nat.succ_pos _)
  · rw [h.history.perv_of_le (Nat.le_of_not_lt hback), dif_neg hback]
    exact ⟨cli, rfl, h⟩

theorem Shows.cliDownKey (h : Shows cli e) :
    ∃ cli', Cli.cliDownKey cli = some cli' ∧ Shows cli' e.down := by
  rw [Cli.cliDownKey, Editor.down]
  by_cases hback : 1 < e.back
  · obtain ⟨history, hpair, hkeeps⟩ := h.history.next hback
    rw [hpair, dif_pos hback]
    exact h.recallLine hkeeps (Nat.sub_pos_of_lt hback)
  · rw [h.history.next_of_le (Nat.le_of_not_lt hback), dif_neg hback]
    exact ⟨cli, rfl, h⟩

theorem Shows.cliEnterKey (h : Shows cli e) :
    ∃ cli', Cli.cliEnterKey cli = some cli' ∧ Shows cli' e.enter := by
  obtain ⟨tail, hbuffer⟩ := h.line.buffer
  have hindex : cli.index = e.line.line.text.length :=
    h.line.index.trans List.length_append.symm
  have hlen := h.line.length_eq
  rw [← List.append_assoc] at hbuffer
  rw [hbuffer] at hlen
  rw [Cli.cliEnterKey, Editor.enter]
  by_cases hzero : cli.index = 0
  · rw [if_pos hzero, if_pos (h.text_eq_nil_iff.2 hzero)]
    exact ⟨cli, rfl, h⟩
  rw [if_neg hzero, if_neg (mt h.text_eq_nil_iff.1 hzero)]
  obtain ⟨x, tail, rfl⟩ : ∃ x tail', tail = x :: tail' :=
    List.exists_cons_of_ne_nil fun hnil => by
      have hle := e.line.length_le
      rw [hnil, List.append_nil] at hlen
      omega
  have hstore : store cli.buffer cli.index 0 = some (e.line.line.text ++ 0 :: tail) := by
    rw [hbuffer, hindex]
    exact store_eq e.line.line.text tail x 0
  have hlen' : (e.line.line.text ++ 0 :: tail).length = cliBufferSize + 1 := by
    rw [← hlen]
    simp [CursorLine.line]
  obtain ⟨history, hsave, hkeeps⟩ := h.history.save hlen'
  obtain ⟨t, argv, -, -, hparse⟩ :=
    exists_cliParseBuffer_eq e.line.line.text tail e.line.line.zero_notMem
  rw [hstore, Option.bind_some, hindex, hsave, Option.bind_some, hparse _ (by
    rw [List.length_append]
    omega)]
  exact ⟨_, rfl, ⟨rfl, rfl, ⟨_, rfl⟩, List.length_replicate⟩, hkeeps⟩

/-- The keys that do what the editor does: a backspace has a character before the cursor, or the
line is empty; and the tab key is not pressed on an empty line while there is only one command. -/
def KeyCond (names : List Line) (cli : CliState) : Key → Prop
  | .backspace => cli.insert = 0 → cli.index = 0
  | .table => cli.index = 0 → ∀ name, names = [name] → name.text = []
  | _ => True

def next (names : List Line) (cli : CliState) (key : Key) : CliState :=
  ((cliKey names cli key).map Prod.snd).getD cli

/-- **A key.** It shows what the editor shows. -/
theorem Shows.cliKeyApp (h : Shows cli e) {key : Key} (hcond : KeyCond names cli key) :
    ∃ cli', Cli.cliKeyApp cli names key = some cli' ∧ Shows cli' (e.edit names key) := by
  cases key with
  | data c =>
    obtain ⟨cli', hkey, hline, hhistory⟩ := h.line.cliData c
    exact ⟨cli', hkey, hline, hhistory ▸ h.history⟩
  | table => exact h.cliTableKey hcond
  | enter => exact h.cliEnterKey
  | backspace =>
    obtain ⟨cli', hkey, hline, hhistory⟩ := h.line.cliBackspaceKey hcond
    exact ⟨cli', hkey, hline, hhistory ▸ h.history⟩
  | up => exact h.cliUpKey
  | down => exact h.cliDownKey
  | letf =>
    obtain ⟨hline, hhistory⟩ := h.line.cliLetfKey
    exact ⟨_, rfl, hline, hhistory ▸ h.history⟩
  | right =>
    obtain ⟨hline, hhistory⟩ := h.line.cliRightKey
    exact ⟨_, rfl, hline, hhistory ▸ h.history⟩

theorem Shows.cliKey (h : Shows cli e) {key : Key} (hcond : KeyCond names cli key) :
    Cli.cliKey names cli key = some ((editKey names e key).1, next names cli key) ∧
      Shows (next names cli key) (editKey names e key).2 := by
  obtain ⟨cli', hkey, hshows⟩ := h.cliKeyApp hcond
  have hview : Cli.cliKey names cli key = some (cli'.view, cli') := by
    rw [Cli.cliKey, hkey, Option.map_some]
  have hnext : next names cli key = cli' := by
    rw [next, hview]
    rfl
  rw [hnext, hview, hshows.view_eq]
  exact ⟨rfl, hshows⟩

theorem Shows.keyCond_of_cliKey_eq (h : Shows cli e) {key : Key} {cli' : CliState}
    (hkey : Cli.cliKey names cli key = some ((editKey names e key).1, cli')) :
    KeyCond names cli key := by
  cases key with
  | backspace =>
    intro hinsert
    by_contra hindex
    rw [Cli.cliKey, Cli.cliKeyApp, cliBackspaceKey_eq_none hinsert hindex h.line.length_eq] at hkey
    cases hkey
  | table =>
    rintro hindex name rfl
    have htext := h.text_eq_nil_iff.2 hindex
    have hcomplete : e.complete [name] = { e with line := .ofLine name } := by
      rw [Editor.complete, List.filter_cons_of_pos (by rw [htext]; rfl), List.filter_nil]
    rw [Cli.cliKey, Cli.cliKeyApp, Cli.cliTableKey, if_pos hindex, Option.map_some, editKey,
      Editor.edit, hcomplete] at hkey
    have hview := congrArg View.index (Prod.mk.inj (Option.some.inj hkey)).1
    rw [CliState.view, hindex] at hview
    exact List.eq_nil_of_length_eq_zero (by simpa [Editor.view, CursorLine.ofLine] using hview.symm)
  | _ => trivial

theorem Editor.view_le (e : Editor) :
    e.view.insert ≤ e.view.index ∧ e.view.index ≤ cliBufferSize ∧
      e.view.text.length = e.view.index := by
  refine ⟨?_, e.line.length_le, rfl⟩
  rw [Editor.view, List.length_append]
  exact Nat.le_add_right _ _

theorem view_le_of_mem (names : List Line) (keys : List Key) (e : Editor) :
    ∀ view ∈ (outputs (editKey names) e keys).1,
      view.insert ≤ view.index ∧ view.index ≤ cliBufferSize ∧ view.text.length = view.index := by
  induction keys generalizing e with
  | nil => exact fun view hview => absurd hview List.not_mem_nil
  | cons key keys ih =>
    intro view hview
    rcases List.mem_cons.1 hview with rfl | hview
    · exact Editor.view_le _
    · exact ih _ view hview

/-- **The line editor.** Along a run of keys no access leaves a buffer and the command line shows
after each key what the editor shows exactly when no backspace is pressed at column 0 of a line that
is not empty, and no tab on an empty line while there is only one command. What the editor shows
fits into the buffer. -/
theorem cliKey_eq_editKey_iff (names : List Line) (keys : List Key) :
    ((∃ cli, outputs? (cliKey names) cliInit keys =
        some ((outputs (editKey names) .init keys).1, cli)) ↔
      Guarded (next names) (KeyCond names) cliInit keys) ∧
    ∀ view ∈ (outputs (editKey names) .init keys).1,
      view.insert ≤ view.index ∧ view.index ≤ cliBufferSize ∧ view.text.length = view.index :=
  ⟨exists_outputs?_eq_iff (fun _ _ _ h hcond => h.cliKey hcond)
    (fun _ _ _ _ h hkey => h.keyCond_of_cliKey_eq hkey) shows_init keys,
    view_le_of_mem names keys .init⟩

/-- After a character and the left key a backspace decrements the position of the cursor to 65535,
and the characters that it moves are outside the buffer. The editor shows the character with the
cursor before it. -/
theorem cliKey_backspace_at_column_zero :
    (¬∃ cli, outputs? (cliKey []) cliInit [.data 97, .letf, .backspace] =
      some ((outputs (editKey []) .init [.data 97, .letf, .backspace]).1, cli)) ∧
    (outputs (editKey []) .init [.data 97, .letf, .backspace]).1 =
      [⟨1, 1, [97]⟩, ⟨1, 0, [97]⟩, ⟨1, 0, [97]⟩] := by
  have hnone : (outputs? (cliKey []) cliInit [.data 97, .letf, .backspace]).isNone = true := by
    decide +kernel
  refine ⟨fun ⟨cli, hcli⟩ => ?_, by decide +kernel⟩
  rw [hcli] at hnone
  cases hnone

end Keys

end TuyaOpen.Cli
