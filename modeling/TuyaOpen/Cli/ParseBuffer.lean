import TuyaOpen.Basic.Text
import TuyaOpen.Common.OperateRet
import Mathlib.Data.List.Basic

/-!
# Splitting a command line

`cli_parse_buffer` of `tal_cli.c` splits a line at its spaces. A loop with two states copies the
characters that are not spaces from a read position to a write position of the same buffer and puts
a terminator behind every argument; then the pointers to the arguments are found by walking from
terminator to terminator.

The buffer is the memory from the start of the line on. An access behind its end has no result, and
the positions that are written are recorded.

## Main results

* `parseLoop_spec`: what the loop leaves in the buffer, in both states.
* `exists_cliParseBuffer_eq`: what the function returns.
* `cliParseBuffer_eq_runs`: the arguments are the first runs.
-/

namespace TuyaOpen.Cli

/-- The character `' '`. -/
def space : UInt8 := 32

/-- `CLI_ARGV_NUM`. -/
def cliArgvNum : Nat := 8

/-! ### The function -/

inductive ParsePhase
  | parseSpace
  | parseArg
  deriving DecidableEq

/-- The variables of the loop, with the positions that have been written. -/
structure ParseState where
  buffer : Bytes
  readchar : Nat
  writechar : Nat
  argc : Nat
  phase : ParsePhase
  stores : List Nat

/-- The assignment `*writechar = c`. -/
def ParseState.store (s : ParseState) (c : UInt8) : Option ParseState :=
  if s.writechar < s.buffer.length then
    some { s with buffer := s.buffer.set s.writechar c, stores := s.writechar :: s.stores }
  else none

/-- An iteration of the loop: the next state, and whether the loop is left. -/
def parseStep (s : ParseState) : Option (Bool × ParseState) :=
  match s.buffer[s.readchar]?, s.phase with
  | none, _ => none
  | some c, .parseSpace =>
    if c = space then some (false, { s with readchar := s.readchar + 1 })
    else if c = 0 then (s.store 0).map fun s => (true, s)
    else some (false, { s with phase := .parseArg })
  | some c, .parseArg =>
    if c = space then
      (s.store 0).map fun s => (false,
        { s with
          writechar := s.writechar + 1
          readchar := s.readchar + 1
          argc := s.argc + 1
          phase := .parseSpace })
    else if c = 0 then (s.store 0).map fun s => (true, { s with argc := s.argc + 1 })
    else
      (s.store c).map fun s => (false,
        { s with writechar := s.writechar + 1, readchar := s.readchar + 1 })

def parseLoop : Nat → ParseState → Option ParseState
  | 0, _ => none
  | fuel + 1, s =>
    match parseStep s with
    | none => none
    | some (true, s) => some s
    | some (false, s) => parseLoop fuel s

/-- `strlen(buffer)`, where there is a terminator. -/
def strlenAt (buffer : Bytes) (pos : Nat) : Option Nat :=
  if 0 ∈ buffer.drop pos then some (cString (buffer.drop pos)).length else none

def argvLoop (buffer : Bytes) : Nat → Nat → Option (List Nat)
  | 0, _ => some []
  | n + 1, pos =>
    match strlenAt buffer pos with
    | none => none
    | some len => (argvLoop buffer n (pos + (len + 1))).map fun argv => pos :: argv

/-- What `cli_parse_buffer` leaves: the buffer, `*argc` and the positions that `argv` points to. -/
structure ParsedLine where
  rt : OperateRet
  buffer : Bytes
  argc : Nat
  argv : List Nat
  stores : List Nat

/-- `cli_parse_buffer`. -/
def cliParseBuffer (fuel : Nat) (buffer : Bytes) : Option ParsedLine :=
  match parseLoop fuel ⟨buffer, 0, 0, 0, .parseSpace, []⟩ with
  | none => none
  | some s =>
    let argc := if cliArgvNum < s.argc then cliArgvNum else s.argc
    (argvLoop s.buffer argc 0).map fun argv => ⟨oprtOk, s.buffer, argc, argv, s.stores⟩

/-! ### Runs of characters -/

section Runs

def runs (line : Bytes) : List Bytes :=
  (line.splitOnP fun c => c = space).filter fun run => run ≠ []

/-- The arguments in the buffer, one behind the other, each with its terminator. -/
def argvText (args : List Bytes) : Bytes := args.flatMap fun arg => arg ++ [0]

variable {arg line : Bytes}

theorem runs_space_cons (line : Bytes) : runs (space :: line) = runs line := by
  rw [runs, List.splitOnP_cons_eq_if_modifyHead]
  rfl

theorem runs_append_space (harg : space ∉ arg) (hne : arg ≠ []) (line : Bytes) :
    runs (arg ++ space :: line) = arg :: runs line := by
  have hall : ∀ c ∈ arg, decide (c = space) = false := by
    intro c hc
    exact decide_eq_false fun heq => harg (heq ▸ hc)
  rw [runs, List.splitOnP_append_cons_of_forall_mem hall space (decide_eq_true rfl),
    List.filter_cons_of_pos (by simpa using hne)]
  rfl

theorem runs_eq_singleton (harg : space ∉ arg) (hne : arg ≠ []) : runs arg = [arg] := by
  have hall : ∀ c ∈ arg, decide (c = space) = false := by
    intro c hc
    exact decide_eq_false fun heq => harg (heq ▸ hc)
  rw [runs, List.splitOnP_eq_singleton hall, List.filter_cons_of_pos (by simpa using hne),
    List.filter_nil]

theorem mem_of_mem_runs {c : UInt8} (harg : arg ∈ runs line) (hc : c ∈ arg) : c ∈ line := by
  have hmem := List.mem_of_mem_filter harg
  clear harg
  induction line generalizing arg with
  | nil =>
    rw [List.splitOnP_nil, List.mem_singleton] at hmem
    rwa [hmem] at hc
  | cons b line ih =>
    rw [List.splitOnP_cons_eq_if_modifyHead] at hmem
    obtain ⟨head, tail, hsplit⟩ :=
      List.exists_cons_of_ne_nil (List.splitOnP_ne_nil (fun c => decide (c = space)) line)
    rw [hsplit] at hmem ih
    split at hmem
    next =>
      rcases List.mem_cons.1 hmem with rfl | htail
      · exact absurd hc List.not_mem_nil
      · exact List.mem_cons_of_mem _ (ih hc htail)
    next =>
      rcases List.mem_cons.1 hmem with rfl | htail
      · rcases List.mem_cons.1 hc with rfl | hc
        · exact List.mem_cons_self
        · exact List.mem_cons_of_mem _ (ih hc List.mem_cons_self)
      · exact List.mem_cons_of_mem _ (ih hc (List.mem_cons_of_mem _ htail))

end Runs

/-! ### The loop -/

section Loop

variable {s t u : ParseState} {front gap line rest arg : Bytes} {k stop : Nat}

def Ends (k : Nat) (s t : ParseState) : Prop := ∀ fuel, k ≤ fuel → parseLoop fuel s = some t

theorem Ends.step (h : parseStep s = some (false, t)) (ht : Ends k t u) : Ends (k + 1) s u := by
  intro fuel hfuel
  obtain ⟨n, rfl⟩ := Nat.exists_eq_add_of_le' (Nat.le_of_add_left_le hfuel)
  rw [parseLoop, h]
  exact ht n (Nat.le_of_add_le_add_right hfuel)

theorem Ends.exit (h : parseStep s = some (true, t)) : Ends 1 s t := by
  intro fuel hfuel
  obtain ⟨n, rfl⟩ := Nat.exists_eq_add_of_le' hfuel
  rw [parseLoop, h]

theorem Ends.mono {m : Nat} (h : Ends k s t) (hle : k ≤ m) : Ends m s t :=
  fun fuel hfuel => h fuel (hle.trans hfuel)

/-- The loop before the rest `line` of the line: what has been written stands at the front, then
comes a gap of characters that are not read again. The terminator is at `stop`. -/
structure Reading (s : ParseState) (front gap line rest : Bytes) (stop : Nat) : Prop where
  buffer : s.buffer = front ++ (gap ++ (line ++ 0 :: rest))
  readchar : s.readchar = front.length + gap.length
  writechar : s.writechar = front.length
  terminator : stop = front.length + gap.length + line.length
  stores : ∀ i ∈ s.stores, i ≤ stop

theorem Reading.getElem? (h : Reading s front gap line rest stop) :
    s.buffer[s.readchar]? = (line ++ 0 :: rest).head? := by
  rw [h.buffer, h.readchar, ← List.append_assoc, ← List.length_append,
    List.getElem?_append_right le_rfl, Nat.sub_self, List.head?_eq_getElem?]

theorem exists_set_gap (front gap : Bytes) (c v : UInt8) (text : Bytes) :
    ∃ gap', gap'.length = gap.length ∧
      (front ++ (gap ++ c :: text)).set front.length v = front ++ ([v] ++ (gap' ++ text)) := by
  cases gap with
  | nil => exact ⟨[], rfl, by simp⟩
  | cons g gap => exact ⟨gap ++ [c], by simp, by simp⟩

theorem Reading.exists_store {c : UInt8} (h : Reading s front gap (c :: line) rest stop)
    (v : UInt8) :
    ∃ t gap', s.store v = some t ∧ t.argc = s.argc ∧ t.phase = s.phase ∧
      Reading { t with writechar := t.writechar + 1, readchar := t.readchar + 1 }
        (front ++ [v]) gap' line rest stop := by
  obtain ⟨gap', hlen, hset⟩ := exists_set_gap front gap c v (line ++ 0 :: rest)
  have hstop := h.terminator
  have hread := h.readchar
  have hwrite := h.writechar
  rw [List.length_cons] at hstop
  refine ⟨_, gap', if_pos ?_, rfl, rfl, ?_, ?_, ?_, ?_, ?_⟩
  · rw [h.buffer, hwrite]
    simp only [List.length_append, List.length_cons]
    omega
  · rw [List.append_assoc, ← hset, h.buffer, hwrite]
    rfl
  · simp only [List.length_append, List.length_singleton]
    omega
  · simp only [List.length_append, List.length_singleton]
    omega
  · simp only [List.length_append, List.length_singleton]
    omega
  · intro i hi
    rcases List.mem_cons.1 hi with rfl | hi
    · omega
    · exact h.stores i hi

theorem Reading.exists_store_last (h : Reading s front gap [] rest stop) :
    ∃ t gap', s.store 0 = some t ∧ t.argc = s.argc ∧ t.buffer = front ++ ([0] ++ gap') ++ rest ∧
      (front ++ ([0] ++ gap')).length = stop + 1 ∧ ∀ i ∈ t.stores, i ≤ stop := by
  obtain ⟨gap', hlen, hset⟩ := exists_set_gap front gap 0 0 rest
  have hstop := h.terminator
  have hwrite := h.writechar
  rw [List.length_nil] at hstop
  refine ⟨_, gap', if_pos ?_, rfl, ?_, ?_, ?_⟩
  · rw [h.buffer, hwrite]
    simp only [List.length_append, List.length_cons]
    omega
  · rw [List.append_assoc, List.append_assoc, ← hset, h.buffer, hwrite]
    rfl
  · simp only [List.length_append, List.length_singleton]
    omega
  · intro i hi
    rcases List.mem_cons.1 hi with rfl | hi
    · omega
    · exact h.stores i hi

/-! #### Iterations -/

theorem Reading.step_skip (h : Reading s front gap (space :: line) rest stop)
    (hphase : s.phase = .parseSpace) :
    ∃ t, parseStep s = some (false, t) ∧ t.phase = .parseSpace ∧ t.argc = s.argc ∧
      Reading t front (gap ++ [space]) line rest stop := by
  refine ⟨{ s with readchar := s.readchar + 1 }, ?_, hphase, rfl, ?_⟩
  · rw [parseStep, h.getElem?, hphase]
    simp only [List.cons_append, List.head?_cons, if_true]
  · refine ⟨by simpa using h.buffer, ?_, h.writechar, ?_, h.stores⟩
    · have := h.readchar
      simp only [List.length_append, List.length_singleton]
      omega
    · have := h.terminator
      simp only [List.length_append, List.length_cons, List.length_nil] at *
      omega

theorem Reading.step_start {c : UInt8} (h : Reading s front gap (c :: line) rest stop)
    (hphase : s.phase = .parseSpace) (hspace : c ≠ space) (hc : c ≠ 0) :
    ∃ t, parseStep s = some (false, t) ∧ t.phase = .parseArg ∧ t.argc = s.argc ∧
      Reading t front gap (c :: line) rest stop := by
  refine ⟨{ s with phase := .parseArg }, ?_, rfl, rfl, h.buffer, h.readchar, h.writechar,
    h.terminator, h.stores⟩
  rw [parseStep, h.getElem?, hphase]
  simp only [List.cons_append, List.head?_cons]
  rw [if_neg hspace, if_neg hc]

theorem Reading.step_copy {c : UInt8} (h : Reading s front gap (c :: line) rest stop)
    (hphase : s.phase = .parseArg) (hspace : c ≠ space) (hc : c ≠ 0) :
    ∃ t gap', parseStep s = some (false, t) ∧ t.phase = .parseArg ∧ t.argc = s.argc ∧
      Reading t (front ++ [c]) gap' line rest stop := by
  obtain ⟨t, gap', hstore, hargc, htphase, hreading⟩ := h.exists_store c
  refine ⟨{ t with writechar := t.writechar + 1, readchar := t.readchar + 1 }, gap', ?_,
    htphase.trans hphase, hargc, hreading⟩
  rw [parseStep, h.getElem?, hphase]
  simp only [List.cons_append, List.head?_cons]
  rw [if_neg hspace, if_neg hc, hstore]
  rfl

theorem Reading.step_terminate (h : Reading s front gap (space :: line) rest stop)
    (hphase : s.phase = .parseArg) :
    ∃ t gap', parseStep s = some (false, t) ∧ t.phase = .parseSpace ∧ t.argc = s.argc + 1 ∧
      Reading t (front ++ [0]) gap' line rest stop := by
  obtain ⟨t, gap', hstore, hargc, -, hreading⟩ := h.exists_store 0
  refine ⟨{ t with
      writechar := t.writechar + 1
      readchar := t.readchar + 1
      argc := t.argc + 1
      phase := .parseSpace }, gap', ?_, rfl, congrArg (· + 1) hargc, hreading.buffer,
    hreading.readchar, hreading.writechar, hreading.terminator, hreading.stores⟩
  rw [parseStep, h.getElem?, hphase]
  simp only [List.cons_append, List.head?_cons, if_true]
  rw [hstore]
  rfl

theorem Reading.step_end (h : Reading s front gap [] rest stop) :
    ∃ t gap', parseStep s = some (true, t) ∧
      t.argc = s.argc + (if s.phase = .parseArg then 1 else 0) ∧
      t.buffer = front ++ ([0] ++ gap') ++ rest ∧
      (front ++ ([0] ++ gap')).length = stop + 1 ∧ ∀ i ∈ t.stores, i ≤ stop := by
  obtain ⟨t, gap', hstore, hargc, hbuffer, hlen, hstores⟩ := h.exists_store_last
  have hstep : parseStep s = some (true,
      { t with argc := t.argc + (if s.phase = .parseArg then 1 else 0) }) := by
    rw [parseStep, h.getElem?]
    cases hphase : s.phase <;>
      simp only [List.nil_append, List.head?_cons] <;>
      rw [if_neg (by decide), if_pos trivial, hstore] <;> rfl
  exact ⟨_, gap', hstep, congrArg (· + _) hargc, hbuffer, hlen, hstores⟩

/-- What the loop leaves: the arguments behind the front, and what stands behind the terminator of
the line as it was. -/
structure Splits (front rest : Bytes) (args : List Bytes) (argc stop : Nat) (s : ParseState) :
    Prop where
  buffer : ∃ gap, s.buffer = front ++ (argvText args ++ gap) ++ rest ∧
    (front ++ (argvText args ++ gap)).length = stop + 1
  argc : s.argc = argc + args.length
  stores : ∀ i ∈ s.stores, i ≤ stop

theorem Splits.cons {args : List Bytes} {argc : Nat}
    (h : Splits (front ++ arg ++ [0]) rest args (argc + 1) stop s) :
    Splits front rest (arg :: args) argc stop s where
  buffer := by
    obtain ⟨gap, hbuffer, hlen⟩ := h.buffer
    refine ⟨gap, ?_, ?_⟩
    · simpa [argvText] using hbuffer
    · simpa [argvText] using hlen
  argc := by rw [h.argc, List.length_cons, Nat.add_assoc, Nat.add_comm 1]
  stores := h.stores

/-- **The loop.** Between arguments it leaves the runs of the rest of the line; within an argument
it leaves those of the argument and the rest. -/
theorem parseLoop_spec (hzero : 0 ∉ line) :
    (∀ s front gap, Reading s front gap line rest stop → s.phase = .parseSpace →
        ∃ t, Ends (2 * line.length + 1) s t ∧ Splits front rest (runs line) s.argc stop t) ∧
      ∀ s front arg gap, Reading s (front ++ arg) gap line rest stop → s.phase = .parseArg →
        space ∉ arg → arg ≠ [] →
        ∃ t, Ends (2 * line.length + 1) s t ∧
          Splits front rest (runs (arg ++ line)) s.argc stop t := by
  induction line with
  | nil =>
    constructor
    · intro s front gap h hphase
      obtain ⟨t, gap', hstep, hargc, hbuffer, hlen, hstores⟩ := h.step_end
      rw [hphase, if_neg (by decide)] at hargc
      exact ⟨t, (Ends.exit hstep).mono (Nat.le_add_left 1 _), ⟨[0] ++ gap', hbuffer, hlen⟩, hargc,
        hstores⟩
    · intro s front arg gap h hphase harg hne
      obtain ⟨t, gap', hstep, hargc, hbuffer, hlen, hstores⟩ := h.step_end
      rw [hphase, if_pos rfl] at hargc
      refine ⟨t, (Ends.exit hstep).mono (Nat.le_add_left 1 _), ?_⟩
      rw [List.append_nil, runs_eq_singleton harg hne]
      refine Splits.cons ⟨⟨gap', ?_, ?_⟩, hargc, hstores⟩
      · simpa [argvText] using hbuffer
      · simpa [argvText] using hlen
  | cons c line ih =>
    obtain ⟨ihSpace, ihArg⟩ := ih fun h => hzero (List.mem_cons_of_mem c h)
    have hc : c ≠ 0 := fun h => hzero (h ▸ List.mem_cons_self)
    -- a character of an argument, whether the argument has already started or not
    have hcopy (s : ParseState) (front arg gap : Bytes)
        (h : Reading s (front ++ arg) gap (c :: line) rest stop) (hphase : s.phase = .parseArg)
        (hspace : c ≠ space) (harg : space ∉ arg) :
        ∃ t, Ends (2 * line.length + 2) s t ∧
          Splits front rest (runs (arg ++ c :: line)) s.argc stop t := by
      obtain ⟨t, gap', hstep, htphase, hargc, hreading⟩ := h.step_copy hphase hspace hc
      rw [List.append_assoc] at hreading
      obtain ⟨u, hends, hsplits⟩ := ihArg t front (arg ++ [c]) gap' hreading htphase
        (by simp [harg, hspace.symm]) (by simp)
      refine ⟨u, hends.step hstep, ?_⟩
      rw [← hargc, List.append_cons]
      exact hsplits
    constructor
    · intro s front gap h hphase
      rw [List.length_cons]
      by_cases hspace : c = space
      · subst hspace
        obtain ⟨t, hstep, htphase, hargc, hreading⟩ := h.step_skip hphase
        obtain ⟨u, hends, hsplits⟩ := ihSpace t front _ hreading htphase
        rw [runs_space_cons, ← hargc]
        exact ⟨u, (hends.step hstep).mono (by omega), hsplits⟩
      · obtain ⟨t, hstep, htphase, hargc, hreading⟩ := h.step_start hphase hspace hc
        rw [← List.append_nil front] at hreading
        obtain ⟨u, hends, hsplits⟩ := hcopy t front [] gap hreading htphase hspace
          List.not_mem_nil
        rw [← hargc]
        exact ⟨u, hends.step hstep, hsplits⟩
    · intro s front arg gap h hphase harg hne
      rw [List.length_cons]
      by_cases hspace : c = space
      · subst hspace
        obtain ⟨t, gap', hstep, htphase, hargc, hreading⟩ := h.step_terminate hphase
        obtain ⟨u, hends, hsplits⟩ := ihSpace t _ gap' hreading htphase
        rw [runs_append_space harg hne]
        refine ⟨u, (hends.step hstep).mono (by omega), Splits.cons ?_⟩
        rw [← hargc]
        exact hsplits
      · obtain ⟨t, hends, hsplits⟩ := hcopy s front arg gap h hphase hspace harg
        exact ⟨t, hends.mono (by omega), hsplits⟩

end Loop

/-! ### The arguments -/

section Arguments

variable {buffer front more line : Bytes} {pos n : Nat}

def PointsTo (buffer : Bytes) (pos : Nat) (arg : Bytes) : Prop :=
  0 ∈ buffer.drop pos ∧ cString (buffer.drop pos) = arg

theorem strlenAt_eq {arg : Bytes} (h : PointsTo buffer pos arg) :
    strlenAt buffer pos = some arg.length := by
  rw [strlenAt, if_pos h.1, h.2]

theorem pointsTo_append {arg : Bytes} (harg : 0 ∉ arg) (front more : Bytes) :
    PointsTo (front ++ (arg ++ 0 :: more)) front.length arg := by
  rw [PointsTo, List.drop_left]
  exact ⟨List.mem_append_right _ List.mem_cons_self, cString_append_zero harg more⟩

theorem exists_argvLoop_eq {args : List Bytes} (hargs : ∀ arg ∈ args, 0 ∉ arg)
    (hn : n ≤ args.length) (hbuffer : buffer = front ++ (argvText args ++ more)) :
    ∃ argv, argvLoop buffer n front.length = some argv ∧
      List.Forall₂ (PointsTo buffer) argv (args.take n) := by
  induction n generalizing args front with
  | zero => exact ⟨[], rfl, by rw [List.take_zero]; exact List.Forall₂.nil⟩
  | succ n ih =>
    cases args with
    | nil => exact absurd hn (Nat.not_succ_le_zero n)
    | cons arg args =>
      have hsplit : buffer = front ++ (arg ++ 0 :: (argvText args ++ more)) := by
        simpa [argvText] using hbuffer
      have hpoints : PointsTo buffer front.length arg := by
        rw [hsplit]
        exact pointsTo_append (hargs arg List.mem_cons_self) front _
      obtain ⟨argv, hloop, hargv⟩ := @ih (front ++ (arg ++ [0])) args
        (fun a ha => hargs a (List.mem_cons_of_mem arg ha)) (Nat.le_of_succ_le_succ hn)
        (by simpa using hsplit)
      refine ⟨front.length :: argv, ?_, ?_⟩
      · rw [List.length_append, List.length_append, List.length_singleton] at hloop
        rw [argvLoop, strlenAt_eq hpoints]
        simp only [hloop, Option.map_some]
      · rw [List.take_succ_cons]
        exact List.Forall₂.cons hpoints hargv

theorem exists_cliParseBuffer_eq (line rest : Bytes) (hzero : 0 ∉ line) :
    ∃ t argv, Splits [] rest (runs line) 0 line.length t ∧
      List.Forall₂ (PointsTo t.buffer) argv
        ((runs line).take (min cliArgvNum (runs line).length)) ∧
      ∀ fuel, 2 * line.length + 1 ≤ fuel → cliParseBuffer fuel (line ++ 0 :: rest) =
        some ⟨oprtOk, t.buffer, min cliArgvNum (runs line).length, argv, t.stores⟩ := by
  have hreading : Reading ⟨line ++ 0 :: rest, 0, 0, 0, .parseSpace, []⟩ [] [] line rest
      line.length :=
    ⟨rfl, rfl, rfl, by simp, fun i hi => absurd hi List.not_mem_nil⟩
  obtain ⟨t, hends, hsplits⟩ := (parseLoop_spec hzero).1 _ _ _ hreading rfl
  obtain ⟨gap, hbuffer, -⟩ := hsplits.buffer
  have hargc : (if cliArgvNum < t.argc then cliArgvNum else t.argc) =
      min cliArgvNum (runs line).length := by
    rw [hsplits.argc, Nat.zero_add]
    split_ifs <;> omega
  have hargs : ∀ arg ∈ runs line, 0 ∉ arg :=
    fun arg harg hmem => hzero (mem_of_mem_runs harg hmem)
  obtain ⟨argv, hloop, hargv⟩ := @exists_argvLoop_eq t.buffer [] (gap ++ rest) _ (runs line) hargs
    (Nat.min_le_right cliArgvNum _) (by simpa using hbuffer)
  rw [List.length_nil] at hloop
  refine ⟨t, argv, hsplits, hargv, fun fuel hfuel => ?_⟩
  rw [cliParseBuffer, hends fuel hfuel]
  dsimp only
  rw [hargc, hloop]
  rfl

/-- **The arguments of a line.** `cli_parse_buffer` ends, writes up to the terminator of the line
and leaves in `argv` the first runs of its characters that are not spaces. -/
theorem cliParseBuffer_eq_runs (line rest : Bytes) (hzero : 0 ∉ line) :
    ∃ r, (∀ fuel, 2 * line.length + 1 ≤ fuel →
        cliParseBuffer fuel (line ++ 0 :: rest) = some r) ∧
      r.rt = oprtOk ∧ r.buffer.length = (line ++ 0 :: rest).length ∧
      r.buffer.drop (line.length + 1) = rest ∧ (∀ i ∈ r.stores, i ≤ line.length) ∧
      r.argc = min cliArgvNum (runs line).length ∧
      List.Forall₂ (PointsTo r.buffer) r.argv ((runs line).take r.argc) := by
  obtain ⟨t, argv, hsplits, hargv, hparse⟩ := exists_cliParseBuffer_eq line rest hzero
  obtain ⟨gap, hbuffer, hlen⟩ := hsplits.buffer
  rw [List.nil_append] at hbuffer hlen
  refine ⟨_, hparse, rfl, ?_, ?_, hsplits.stores, rfl, hargv⟩
  · dsimp only
    rw [hbuffer, List.length_append, hlen, List.length_append, List.length_cons]
    omega
  · dsimp only
    rw [hbuffer, ← hlen, List.drop_left]

/-- Two arguments with spaces around them. -/
theorem cliParseBuffer_eq_runs_help :
    ∃ r, cliParseBuffer 13 (asciiBytes " ab  c".toList ++ [0]) = some r ∧
      r.argc = min cliArgvNum (runs (asciiBytes " ab  c".toList)).length := by
  obtain ⟨r, hr, -, -, -, -, hargc, -⟩ :=
    cliParseBuffer_eq_runs (asciiBytes " ab  c".toList) [] (by decide)
  exact ⟨r, hr 13 (by decide), hargc⟩

example : (cliParseBuffer 20 (asciiBytes " ab  c".toList ++ [0])).map ParsedLine.argv =
    some [0, 3] := by decide

end Arguments

end TuyaOpen.Cli
