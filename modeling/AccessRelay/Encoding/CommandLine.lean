import AccessRelay.Encoding.BigEndian

/-!
# Splitting a command line into arguments

The rules by which Windows programs split their command line. `2n` backslashes before a quote are
`n` backslashes, and the quote opens or closes a quoted part; `2n + 1` backslashes before a quote
are `n` backslashes and a literal quote; all other backslashes are literal. Spaces and tabs outside
quoted parts separate the arguments.

The splitting is done in two passes. `lex` resolves the backslashes, which does not depend on what
is quoted, and `assemble` cuts the tokens into arguments. `weight` counts what is left of the
backslashes and quotes of a text; `weight_assemble` says that none of that is lost in the second
pass.
-/

namespace AccessRelay.Encoding.CommandLine

/-- The characters with a meaning. -/
def quote : UInt8 := 34
def backslash : UInt8 := 92
def space : UInt8 := 32
def tab : UInt8 := 9

/-- Spaces and tabs. -/
def isBlank (b : UInt8) : Bool := b = space || b = tab

/-- A piece of a command line after its backslashes are resolved. -/
inductive Token where
  | literal (b : UInt8)
  | blank (b : UInt8)
  | toggle
  deriving DecidableEq

/-- The token of a byte that no rule is about. -/
def Token.plain (b : UInt8) : Token := if isBlank b then .blank b else .literal b

/-- Backslashes that stand for themselves. -/
def slashes (n : Nat) : List Token := List.replicate n (.literal backslash)

/-- Resolve the backslashes; `pending` of them have been read and wait for what follows. -/
def lex (pending : Nat) : Bytes → List Token
  | [] => slashes pending
  | b :: rest =>
      if b = backslash then lex (pending + 1) rest
      else if b = quote then
        slashes (pending / 2) ++ (if pending % 2 = 0 then .toggle else .literal quote) :: lex 0 rest
      else slashes pending ++ .plain b :: lex 0 rest

/-- Cut tokens into arguments. `current` is the argument that has begun, if one has. -/
def assemble : Bool → Option Bytes → List Token → List Bytes
  | _, current, [] => current.toList
  | quoted, current, .literal b :: rest => assemble quoted (some (current.getD [] ++ [b])) rest
  | quoted, current, .toggle :: rest => assemble (!quoted) (some (current.getD [])) rest
  | true, current, .blank b :: rest => assemble true (some (current.getD [] ++ [b])) rest
  | false, current, .blank _ :: rest => current.toList ++ assemble false none rest

/-- The arguments of a command line. -/
def splitArgs (text : Bytes) : List Bytes := assemble false none (lex 0 text)

/-- Nothing that starts like this changes the meaning of backslashes before it. -/
def Settles (rest : Bytes) : Prop := ∀ b, rest.head? = some b → b ≠ backslash ∧ b ≠ quote

section Lex

variable {rest : Bytes}

theorem slashes_succ (n : Nat) : slashes (n + 1) = slashes n ++ [.literal backslash] :=
  List.replicate_succ'

theorem lex_settles (h : Settles rest) (pending : Nat) :
    lex pending rest = slashes pending ++ lex 0 rest := by
  cases rest with
  | nil => simp [lex, slashes]
  | cons b rest =>
      obtain ⟨hslash, hquote⟩ := h b rfl
      simp [lex, hslash, hquote, slashes]

/-- The two sides of a place where nothing is pending are read apart. -/
theorem lex_append (h : Settles rest) (text : Bytes) (pending : Nat) :
    lex pending (text ++ rest) = lex pending text ++ lex 0 rest := by
  induction text generalizing pending with
  | nil => exact lex_settles h pending
  | cons b text ih =>
      simp only [List.cons_append, lex]
      split_ifs <;> simp [ih]

/-- Text without quotes stands for itself. -/
theorem lex_literal {text : Bytes} (h : quote ∉ text) (pending : Nat) :
    lex pending text = slashes pending ++ text.map .plain := by
  induction text generalizing pending with
  | nil => simp [lex]
  | cons b text ih =>
      rw [List.mem_cons, not_or] at h
      have hquote : b ≠ quote := fun heq => h.1 heq.symm
      by_cases hslash : b = backslash
      · subst hslash
        have hplain : Token.plain backslash = .literal backslash := rfl
        rw [lex, if_pos rfl, ih h.2, slashes_succ, List.map_cons, hplain, List.append_assoc]
        rfl
      · rw [lex, if_neg hslash, if_neg hquote, ih h.2]
        rfl

end Lex

section Assemble

variable {rest : List Token}

/-- Inside quotes every byte is taken. -/
theorem assemble_quoted (text current : Bytes) :
    assemble true (some current) (text.map .plain ++ rest) =
      assemble true (some (current ++ text)) rest := by
  induction text generalizing current with
  | nil => simp
  | cons b text ih =>
      have hstep : assemble true (some current) (.plain b :: (text.map .plain ++ rest)) =
          assemble true (some (current ++ [b])) (text.map .plain ++ rest) := by
        unfold Token.plain
        split <;> rfl
      rw [List.map_cons, List.cons_append, hstep, ih, List.append_assoc]
      rfl

/-- Outside quotes every byte is taken that is not blank. -/
theorem assemble_bare {text : Bytes} (h : ∀ b ∈ text, isBlank b = false) (current : Bytes) :
    assemble false (some current) (text.map .plain ++ rest) =
      assemble false (some (current ++ text)) rest := by
  induction text generalizing current with
  | nil => simp
  | cons b text ih =>
      have hplain : Token.plain b = .literal b := if_neg (by simp [h b List.mem_cons_self])
      have hstep : assemble false (some current) (.plain b :: (text.map .plain ++ rest)) =
          assemble false (some (current ++ [b])) (text.map .plain ++ rest) := by
        rw [hplain]
        rfl
      rw [List.map_cons, List.cons_append, hstep,
        ih fun c hc => h c (List.mem_cons_of_mem _ hc), List.append_assoc]
      rfl

end Assemble

section Weight

/-- A backslash counts two, a quote one. -/
def byteWeight (b : UInt8) : Nat := if b = backslash then 2 else if b = quote then 1 else 0

/-- The backslashes and quotes of a text. -/
def weight (text : Bytes) : Nat := (text.map byteWeight).sum

/-- The backslashes and quotes that a token stands for. -/
def Token.weight : Token → Nat
  | .literal b => byteWeight b
  | _ => 0

/-- The backslashes and quotes that the tokens stand for. -/
def tokenWeight (tokens : List Token) : Nat := (tokens.map Token.weight).sum

@[simp] theorem weight_nil : weight [] = 0 := rfl

@[simp] theorem weight_cons (b : UInt8) (text : Bytes) :
    weight (b :: text) = byteWeight b + weight text := List.sum_cons

@[simp] theorem weight_append (text more : Bytes) :
    weight (text ++ more) = weight text + weight more := by
  simp [weight]

@[simp] theorem token_weight_nil : tokenWeight [] = 0 := rfl

@[simp] theorem token_weight_cons (t : Token) (tokens : List Token) :
    tokenWeight (t :: tokens) = t.weight + tokenWeight tokens := List.sum_cons

@[simp] theorem token_weight_append (tokens more : List Token) :
    tokenWeight (tokens ++ more) = tokenWeight tokens + tokenWeight more := by
  simp [tokenWeight]

@[simp] theorem token_weight_slashes (n : Nat) : tokenWeight (slashes n) = 2 * n := by
  have hslash : byteWeight backslash = 2 := rfl
  simp [tokenWeight, slashes, Token.weight, hslash, Nat.mul_comm]

theorem byte_weight_blank {b : UInt8} (h : isBlank b = true) : byteWeight b = 0 := by
  simp only [isBlank, Bool.or_eq_true, decide_eq_true_eq] at h
  rcases h with rfl | rfl <;> rfl

@[simp] theorem weight_plain (b : UInt8) : (Token.plain b).weight = byteWeight b := by
  unfold Token.plain
  split
  next h => exact (byte_weight_blank h).symm
  next => rfl

/-- The arguments hold the backslashes and quotes of the tokens, no more and no fewer. Blanks have
no weight, so it does not matter which of them separate. -/
theorem weight_assemble (quoted : Bool) (current : Option Bytes) (tokens : List Token)
    (hblank : ∀ b, .blank b ∈ tokens → isBlank b = true) :
    weight (assemble quoted current tokens).flatten =
      weight (current.getD []) + tokenWeight tokens := by
  induction tokens generalizing quoted current with
  | nil => cases current <;> simp [assemble]
  | cons t tokens ih =>
      have hrest : ∀ b, Token.blank b ∈ tokens → isBlank b = true :=
        fun b hb => hblank b (List.mem_cons_of_mem _ hb)
      cases t with
      | literal b =>
          simp only [assemble, ih _ _ hrest, Option.getD_some, weight_append, weight_cons,
            weight_nil, token_weight_cons, Token.weight]
          omega
      | toggle =>
          simp only [assemble, ih _ _ hrest, Option.getD_some, token_weight_cons, Token.weight]
          omega
      | blank b =>
          have hb := byte_weight_blank (hblank b List.mem_cons_self)
          cases quoted with
          | true =>
              simp only [assemble, ih _ _ hrest, Option.getD_some, weight_append, weight_cons,
                weight_nil, token_weight_cons, Token.weight]
              omega
          | false =>
              simp only [assemble, List.flatten_append, weight_append, ih _ _ hrest,
                Option.getD_none, weight_nil, token_weight_cons, Token.weight]
              cases current <;> simp

/-- `lex` calls only spaces and tabs blank. -/
theorem lex_blank {text : Bytes} {pending : Nat} {b : UInt8} (h : .blank b ∈ lex pending text) :
    isBlank b = true := by
  have hslashes : ∀ n, Token.blank b ∉ slashes n := by
    intro n hmem
    exact absurd (List.eq_of_mem_replicate hmem) Token.noConfusion
  have hresolved : ∀ {n t tokens}, Token.blank b ∈ slashes n ++ t :: tokens →
      Token.blank b = t ∨ Token.blank b ∈ tokens := by
    intro n t tokens hmem
    exact List.mem_cons.mp ((List.mem_append.mp hmem).resolve_left (hslashes n))
  induction text generalizing pending with
  | nil => exact absurd h (hslashes pending)
  | cons c text ih =>
      rw [lex] at h
      split_ifs at h with hslash hquote heven
      · exact ih h
      · exact ih ((hresolved h).resolve_left Token.noConfusion)
      · exact ih ((hresolved h).resolve_left Token.noConfusion)
      · rcases hresolved h with heq | hmem
        · unfold Token.plain at heq
          split at heq
          next hb =>
            cases heq
            exact hb
          next => cases heq
        · exact ih hmem

/-- Splitting a text yields the weight of its tokens. -/
theorem weight_split_args (text : Bytes) :
    weight (splitArgs text).flatten = tokenWeight (lex 0 text) := by
  rw [splitArgs, weight_assemble false none _ fun b hb => lex_blank hb]
  simp

end Weight

end AccessRelay.Encoding.CommandLine
