import AccessRelay.Encoding.CommandLine

/-!
# The command line of the service

`internal/winsvc/manager_windows.go`: `install` quotes the executable and its arguments into one
command line, which runs as LocalSystem. `split_tail_iff` says which arguments survive the parsing:
`quoteArg` doubles only the very last backslash of an argument it quotes, so an argument with a
backslash before a quote, or with more than one backslash at its end, does not.

Such an argument always loses weight (`weight_quote_loop`), and no other argument can make up for
it, so the list that comes out is a different one.
-/

namespace AccessRelay.Winsvc

open Encoding Encoding.CommandLine

/-- `strings.ContainsAny(s, " \t\"")`. -/
def needsQuoting (s : Bytes) : Bool := s.any fun b => isBlank b || b = quote

/-- The loop of `quoteArg`, for what is left of the argument. -/
def quoteLoop : Bytes → Bytes
  | [] => []
  | b :: rest =>
      if b = quote then backslash :: quote :: quoteLoop rest
      else if b = backslash then
        backslash :: ((if rest = [] then [backslash] else []) ++ quoteLoop rest)
      else b :: quoteLoop rest

/-- `quoteArg`. -/
def quoteArg (s : Bytes) : Bytes :=
  if s = [] then [quote, quote]
  else if ¬ needsQuoting s then s
  else quote :: (quoteLoop s ++ [quote])

/-- `quoteAlways`. -/
def quoteAlways (s : Bytes) : Bytes :=
  if s = [] then [quote, quote]
  else if needsQuoting s then quoteArg s
  else quote :: (s ++ [quote])

/-- The command line that `install` builds. -/
def commandLine (exePath : Bytes) (args : List Bytes) : Bytes :=
  args.foldl (fun cmdline a => cmdline ++ (space :: quoteArg a)) (quoteAlways exePath)

/-- The part of the command line after the executable. -/
def argumentTail (args : List Bytes) : Bytes := args.flatMap fun a => space :: quoteArg a

theorem command_line_eq (exePath : Bytes) (args : List Bytes) :
    commandLine exePath args = quoteAlways exePath ++ argumentTail args := by
  rw [commandLine, argumentTail, List.foldl_append_eq_append, List.flatMap_def]

/-- No backslash of the argument stands before a quote, and it does not end in two backslashes. -/
def Survives (a : Bytes) : Prop :=
  ¬ [backslash, quote] <:+: a ∧ ¬ [backslash, backslash] <:+ a

instance (a : Bytes) : Decidable (Survives a) := inferInstanceAs (Decidable (_ ∧ _))

/-- The same along the loop: `after` says whether a backslash stands before what is left. -/
def Sound : Bool → Bytes → Prop
  | after, [] => after = false
  | after, b :: rest =>
      if b = quote then after = false ∧ Sound false rest
      else if b = backslash then (if rest = [] then after = false else Sound true rest)
      else Sound false rest

section Survives

variable {b : UInt8} {rest : Bytes}

theorem survives_cons : Survives (b :: rest) ↔
    ¬ (b = backslash ∧ (rest.head? = some quote ∨ rest = [backslash])) ∧ Survives rest := by
  have hbefore : [backslash, quote] <+: b :: rest ↔ b = backslash ∧ rest.head? = some quote := by
    cases rest with
    | nil => simp [List.cons_prefix_cons]
    | cons c rest => simp [List.cons_prefix_cons, eq_comm]
  have hend : [backslash, backslash] = b :: rest ↔ b = backslash ∧ rest = [backslash] := by
    rw [List.cons.injEq]
    exact and_congr eq_comm eq_comm
  rw [Survives, Survives, List.infix_cons_iff, List.suffix_cons_iff, hbefore, hend]
  tauto

/-- Both forms of the condition say the same. -/
theorem sound_iff (a : Bytes) : (Sound false a ↔ Survives a) ∧
    (a ≠ [] → (Sound true a ↔ Survives (backslash :: a))) := by
  induction a with
  | nil => exact ⟨by simp [Sound, Survives], fun h => absurd rfl h⟩
  | cons b rest ih =>
      have hslash : backslash ≠ quote := by decide
      obtain ⟨hfalse, htrue⟩ := ih
      by_cases hquote : b = quote
      · subst hquote
        simp [Sound, survives_cons, hfalse, hslash.symm]
      by_cases hb : b = backslash
      · subst hb
        by_cases hempty : rest = []
        · subst hempty
          exact ⟨iff_of_true (by simp [Sound, hslash]) (by decide),
            fun _ => iff_of_false (by simp [Sound, hslash]) (by decide)⟩
        · have hrest := htrue hempty
          have hdouble :
              Survives (backslash :: backslash :: rest) ↔ Survives (backslash :: rest) := by
            rw [survives_cons]
            simp [hslash, hempty]
          simp only [Sound, hslash, hempty, if_false, if_true, hrest, hdouble, true_and,
            implies_true]
      · simp [Sound, survives_cons, hfalse, hquote, hb]

end Survives

section Tokens

/-- A quoted argument that is sound is read back as it was. -/
theorem lex_quote_loop {a : Bytes} {pending : Nat} (h : Sound (decide (0 < pending)) a)
    (rest : Bytes) : lex pending (quoteLoop a ++ quote :: rest) =
      slashes pending ++ (a.map .plain ++ .toggle :: lex 0 rest) := by
  have hslash : quote ≠ backslash := by decide
  induction a generalizing pending with
  | nil =>
      obtain rfl : pending = 0 := by simpa [Sound] using h
      simp [quoteLoop, lex, hslash, slashes]
  | cons b a ih =>
      by_cases hquote : b = quote
      · subst hquote
        simp only [Sound, if_true, decide_eq_false_iff_not, Nat.not_lt, Nat.le_zero] at h
        obtain ⟨rfl, hrest⟩ := h
        have hplain : Token.plain quote = .literal quote := rfl
        simp [quoteLoop, lex, hslash, slashes, hplain, @ih 0 (by simpa using hrest)]
      by_cases hb : b = backslash
      · subst hb
        have hplain : Token.plain backslash = .literal backslash := rfl
        by_cases hempty : a = []
        · subst hempty
          obtain rfl : pending = 0 := by simpa [Sound, hquote] using h
          simp [quoteLoop, lex, hquote, hslash, slashes, hplain]
        · have hrest : Sound true a := by simpa [Sound, hquote, hempty] using h
          have hnext := @ih (pending + 1) (by simpa using hrest)
          simp only [quoteLoop, hquote, hempty, if_false, if_true, List.nil_append,
            List.cons_append, lex, hnext, slashes_succ, List.map_cons, hplain, List.append_assoc]
      · have hrest : Sound false a := by simpa [Sound, hquote, hb] using h
        have hnext := @ih 0 (by simpa using hrest)
        simp [quoteLoop, lex, hquote, hb, hnext, slashes]

/-- Backslashes before a quote weigh as much as they are many. -/
theorem weight_before_quote (pending : Nat) (tokens : List Token) :
    tokenWeight (slashes (pending / 2) ++
      (if pending % 2 = 0 then .toggle else .literal quote) :: tokens) =
      pending + tokenWeight tokens := by
  have hquote : byteWeight quote = 1 := rfl
  rw [token_weight_append, token_weight_cons, token_weight_slashes]
  split_ifs <;> simp only [Token.weight, hquote] <;> omega

/-- Quoting never adds weight, and keeps it only for an argument that is sound. -/
theorem weight_quote_loop (a : Bytes) (pending : Nat) :
    tokenWeight (lex pending (quoteLoop a ++ [quote])) ≤ 2 * pending + weight a ∧
      (tokenWeight (lex pending (quoteLoop a ++ [quote])) = 2 * pending + weight a →
        Sound (decide (0 < pending)) a) := by
  have hslash : quote ≠ backslash := by decide
  have hweight : byteWeight quote = 1 ∧ byteWeight backslash = 2 := by decide
  induction a generalizing pending with
  | nil =>
      have hlex : tokenWeight (lex pending (quoteLoop [] ++ [quote])) = pending := by
        simp only [quoteLoop, List.nil_append, lex, hslash, if_false, if_true]
        rw [weight_before_quote]
        rfl
      rw [hlex]
      simp only [weight_nil, Sound, decide_eq_false_iff_not]
      omega
  | cons b a ih =>
      by_cases hquote : b = quote
      · subst hquote
        have hlex : tokenWeight (lex pending (quoteLoop (quote :: a) ++ [quote])) =
            pending + 1 + tokenWeight (lex 0 (quoteLoop a ++ [quote])) := by
          simp only [quoteLoop, if_true, List.cons_append, lex, hslash, if_false]
          rw [weight_before_quote]
        obtain ⟨hle, hsound⟩ := ih 0
        rw [hlex, weight_cons, hweight.1]
        refine ⟨by omega, fun heq => ?_⟩
        obtain rfl : pending = 0 := by omega
        simp only [Sound, if_true]
        exact ⟨rfl, hsound (by omega)⟩
      by_cases hb : b = backslash
      · subst hb
        rw [weight_cons, hweight.2]
        by_cases hempty : a = []
        · subst hempty
          have hlex : tokenWeight (lex pending (quoteLoop [backslash] ++ [quote])) =
              pending + 2 := by
            simp only [quoteLoop, hquote, if_false, if_true, List.cons_append, List.nil_append,
              lex, hslash]
            rw [weight_before_quote]
            rfl
          rw [hlex]
          simp only [weight_nil, Sound, hquote, if_false, if_true, decide_eq_false_iff_not]
          omega
        · obtain ⟨hle, hsound⟩ := ih (pending + 1)
          simp only [quoteLoop, hquote, hempty, if_false, if_true, List.nil_append,
            List.cons_append, lex, Sound]
          exact ⟨by omega, fun heq => by simpa using hsound (by omega)⟩
      · obtain ⟨hle, hsound⟩ := ih 0
        have hzero : byteWeight b = 0 := by simp [byteWeight, hquote, hb]
        simp only [quoteLoop, hquote, hb, if_false, List.cons_append, lex, token_weight_append,
          token_weight_cons, token_weight_slashes, weight_plain, weight_cons, hzero, Sound]
        exact ⟨by omega, fun heq => by simpa using hsound (by omega)⟩

end Tokens

section Arguments

variable {a : Bytes}

/-- An argument that is not quoted holds nothing that has to be. -/
theorem not_needs_quoting (h : needsQuoting a = false) :
    quote ∉ a ∧ ∀ b ∈ a, isBlank b = false := by
  have hall : ∀ b ∈ a, isBlank b = false ∧ b ≠ quote := by
    simpa [needsQuoting] using h
  exact ⟨fun hmem => (hall quote hmem).2 rfl, fun b hb => (hall b hb).1⟩

/-- A quoted argument begins outside of quotes. -/
theorem lex_open_quote (text : Bytes) : lex 0 (quote :: text) = .toggle :: lex 0 text := by
  have hslash : quote ≠ backslash := by decide
  simp [lex, hslash, slashes]

/-- An argument that survives is put together again. -/
theorem assemble_quote_arg (h : needsQuoting a = true → Sound false a) (rest : List Token) :
    assemble false none (lex 0 (quoteArg a) ++ rest) = assemble false (some a) rest := by
  unfold quoteArg
  split_ifs with hempty hquoting
  · rw [hempty]
    rfl
  · have hloop := @lex_quote_loop a 0 (h hquoting) []
    have hquoted := @assemble_quoted (.toggle :: rest) a []
    simp only [slashes, List.replicate_zero, List.nil_append] at hloop hquoted
    rw [lex_open_quote, hloop]
    simpa [assemble, lex, slashes] using hquoted
  · obtain ⟨hquote, hblank⟩ := not_needs_quoting (Bool.eq_false_of_not_eq_true hquoting)
    rw [lex_literal hquote]
    obtain ⟨b, text, rfl⟩ := List.exists_cons_of_ne_nil hempty
    have hplain : Token.plain b = .literal b := if_neg (by simp [hblank b List.mem_cons_self])
    have hrest := @assemble_bare rest text (fun c hc => hblank c (List.mem_cons_of_mem _ hc)) [b]
    simpa [slashes, hplain, assemble] using hrest

/-- What the parser sees of an argument is at most what was in it, and as much only if it
survives. -/
theorem weight_quote_arg (a : Bytes) : tokenWeight (lex 0 (quoteArg a)) ≤ weight a ∧
    (tokenWeight (lex 0 (quoteArg a)) = weight a → needsQuoting a = true → Sound false a) := by
  unfold quoteArg
  split_ifs with hempty hquoting
  · rw [hempty]
    exact ⟨by decide, fun _ hquoting => by simp [needsQuoting] at hquoting⟩
  · obtain ⟨hle, hsound⟩ := weight_quote_loop a 0
    rw [lex_open_quote, token_weight_cons]
    simp only [Token.weight, Nat.mul_zero, Nat.zero_add] at hle hsound ⊢
    exact ⟨hle, fun heq _ => hsound heq⟩
  · obtain ⟨hquote, -⟩ := not_needs_quoting (Bool.eq_false_of_not_eq_true hquoting)
    refine ⟨?_, fun _ h => absurd h hquoting⟩
    rw [lex_literal hquote]
    have hplain : tokenWeight (a.map .plain) = weight a := by
      simp [tokenWeight, weight, Function.comp_def]
    simp [hplain]

/-- The next argument begins with a space. -/
theorem argument_tail_settles (args : List Bytes) : Settles (argumentTail args) := by
  intro b hb
  cases args with
  | nil => simp [argumentTail] at hb
  | cons a args =>
      obtain rfl : space = b := by simpa [argumentTail] using hb
      decide

/-- The arguments are read one by one. -/
theorem lex_argument_tail (a : Bytes) (args : List Bytes) :
    lex 0 (argumentTail (a :: args)) =
      .blank space :: (lex 0 (quoteArg a) ++ lex 0 (argumentTail args)) := by
  have htail : argumentTail (a :: args) = space :: (quoteArg a ++ argumentTail args) := rfl
  have hspace : lex 0 (space :: (quoteArg a ++ argumentTail args)) =
      .blank space :: lex 0 (quoteArg a ++ argumentTail args) := rfl
  rw [htail, hspace, lex_append (argument_tail_settles args)]

/-- An argument that has begun ends where the next one begins. -/
theorem assemble_tail (a : Bytes) (args : List Bytes) :
    assemble false (some a) (lex 0 (argumentTail args)) =
      a :: assemble false none (lex 0 (argumentTail args)) := by
  cases args with
  | nil => rfl
  | cons next args =>
      rw [lex_argument_tail]
      rfl

/-- Arguments that survive come back. -/
theorem split_tail {args : List Bytes} (h : ∀ a ∈ args, needsQuoting a = true → Sound false a) :
    splitArgs (argumentTail args) = args := by
  unfold splitArgs
  induction args with
  | nil => rfl
  | cons a args ih =>
      have hskip : ∀ tokens, assemble false none (.blank space :: tokens) =
          assemble false none tokens := fun tokens => rfl
      rw [lex_argument_tail, hskip, assemble_quote_arg (h a List.mem_cons_self), assemble_tail,
        ih fun next hnext => h next (List.mem_cons_of_mem _ hnext)]

/-- The list that comes back weighs no more than the arguments, and as much only if all of them
survive. -/
theorem weight_tail (args : List Bytes) :
    tokenWeight (lex 0 (argumentTail args)) ≤ weight args.flatten ∧
      (tokenWeight (lex 0 (argumentTail args)) = weight args.flatten →
        ∀ a ∈ args, needsQuoting a = true → Sound false a) := by
  induction args with
  | nil => exact ⟨Nat.le_refl 0, fun _ a ha => absurd ha List.not_mem_nil⟩
  | cons a args ih =>
      obtain ⟨hle, hsound⟩ := ih
      obtain ⟨hleHead, hsoundHead⟩ := weight_quote_arg a
      rw [lex_argument_tail, List.flatten_cons, weight_append, token_weight_cons,
        token_weight_append]
      simp only [Token.weight, Nat.zero_add]
      refine ⟨by omega, fun heq next hnext => ?_⟩
      rcases List.mem_cons.mp hnext with rfl | hnext
      · exact hsoundHead (by omega)
      · exact hsound (by omega) next hnext

end Arguments

/-- The arguments of the service come back from its command line exactly if none that has to be
quoted, for a space, a tab or a quote in it, has a backslash directly before a quote or ends in two
backslashes. -/
theorem split_tail_iff (args : List Bytes) :
    splitArgs (argumentTail args) = args ↔
      ∀ a ∈ args, needsQuoting a = true → Survives a := by
  simp only [← (sound_iff _).1]
  constructor
  · intro hsplit
    have hweight := weight_split_args (argumentTail args)
    rw [hsplit] at hweight
    exact (weight_tail args).2 hweight.symm
  · intro hsound
    exact split_tail hsound

/-- `-config` and a directory with a space and a backslash at its end. -/
example : splitArgs (argumentTail [ascii "-config", ascii "C:\\dir with space\\", []]) =
    [ascii "-config", ascii "C:\\dir with space\\", []] := by decide

/-- A directory with a space that ends in two backslashes swallows the argument after it, and a
backslash before a quote ends the quoting early. -/
theorem quoted_arguments_break :
    splitArgs (argumentTail [ascii "C:\\a b\\\\", ascii "-x"]) = [ascii "C:\\a b\\\" -x"] ∧
      splitArgs (argumentTail [ascii "a\\\" b"]) = [ascii "a\\", ascii "b"] := by decide

end AccessRelay.Winsvc
