import Mathlib.Data.List.Basic

/-!
# ShellQuoting — words for a POSIX shell

`quote_shell_word` leaves a word of harmless characters as it is and puts any other in single
quotes, where an embedded quote leaves the quoting, escapes itself and re-enters.  What a shell
makes of the result is said by a lexer of the shell's quoting and token rules: it removes quotes,
splits words, and keeps a record of every character that it reads as an operator, a comment, an
assignment, an expansion, a substitution or a pattern.
-/

namespace Terrarium.Cli

def quote : Char := Char.ofNat 39

def doubleQuote : Char := Char.ofNat 34

def backslash : Char := Char.ofNat 92

def bare (c : Char) : Bool :=
  c.isAlphanum || "._-/=:+@,".toList.contains c

def quoteShellWord (text : List Char) : List Char :=
  if !text.isEmpty && text.all bare then text
  else quote :: text.flatMap (fun c => if c = quote then [quote, backslash, quote, quote]
    else [c]) ++ [quote]

/-! ## The shell's lexer -/

inductive Mode where
  | plain
  | escaped
  | single
  | double
  | doubleEscaped
  | comment
  deriving DecidableEq

/-- The word under way, the finished words with their quotes removed, and the characters that were
not read as themselves.  Whether a word is in command position is for the shell's parser to say. -/
structure Lexer where
  mode : Mode := .plain
  word : Option (List Char) := none
  words : List (List Char) := []
  special : List Char := []
  commandPosition : Bool

namespace Lexer

variable {l : Lexer} {c : Char}

def blanks : List Char := " \t".toList

def operators : List Char := "|&;<>()\n".toList

def expansions : List Char := "$`*?[]\x7b\x7d~!^%#".toList

def push (l : Lexer) (c : Char) : Lexer :=
  { l with word := some (l.word.getD [] ++ [c]) }

def enter (l : Lexer) (mode : Mode) : Lexer :=
  { l with mode, word := some (l.word.getD []) }

def recognise (l : Lexer) (c : Char) : Lexer :=
  { l with special := l.special ++ [c] }

def delimit (l : Lexer) : Lexer :=
  match l.word with
  | none => l
  | some word => { l with word := none, words := l.words ++ [word] }

def step (l : Lexer) (c : Char) : Lexer :=
  match l.mode with
  | .plain =>
    if c ∈ blanks then l.delimit
    else if c ∈ operators then l.delimit.recognise c
    else if c = quote then l.enter .single
    else if c = doubleQuote then l.enter .double
    else if c = backslash then { l with mode := .escaped }
    else if c = '#' ∧ l.word = none then { l.recognise c with mode := .comment }
    else if c ∈ expansions ∨ c = '=' ∧ l.commandPosition then (l.push c).recognise c
    else l.push c
  -- An escaped newline continues the line.
  | .escaped => { (if c = '\n' then l else l.push c) with mode := .plain }
  | .single => if c = quote then { l with mode := .plain } else l.push c
  | .double =>
    if c = doubleQuote then { l with mode := .plain }
    else if c = backslash then { l with mode := .doubleEscaped }
    else if c ∈ "$`".toList then (l.push c).recognise c
    else l.push c
  | .doubleEscaped =>
    if c = '\n' then { l with mode := .double }
    else if c = doubleQuote ∨ c = backslash ∨ c ∈ "$`".toList then { l.push c with mode := .double }
    else { (l.push backslash).push c with mode := .double }
  | .comment => if c = '\n' then { l.recognise c with mode := .plain } else l

/-! ## Reading a quoted word -/

lemma step_bare (hmode : l.mode = .plain) (hposition : l.commandPosition = false)
    (hc : bare c = true) : l.step c = l.push c := by
  have hnot : ∀ specials : List Char, specials.all (!bare ·) → c ∉ specials := by
    intro specials hspecials hmem
    simpa [hc] using List.all_eq_true.1 hspecials c hmem
  have hquotes : c ∉ [quote, doubleQuote, backslash, '#'] := hnot _ (by decide)
  simp only [List.mem_cons, List.not_mem_nil, or_false, not_or] at hquotes
  simp [step, hmode, hposition, hquotes, hnot blanks (by decide), hnot operators (by decide),
    hnot expansions (by decide)]

lemma run_bare {text : List Char} (hmode : l.mode = .plain) (hposition : l.commandPosition = false)
    (htext : ∀ c ∈ text, bare c = true) (word : List Char) :
    text.foldl step { l with word := some word } = { l with word := some (word ++ text) } := by
  induction text generalizing word with
  | nil => simp
  | cons c text ih =>
    obtain ⟨hc, htext⟩ := List.forall_mem_cons.1 htext
    have hstep : step { l with word := some word } c = { l with word := some (word ++ [c]) } :=
      step_bare hmode hposition hc
    rw [List.foldl_cons, hstep, ih htext, List.append_assoc]
    rfl

/-- Inside the quotes, every character of the text is read as itself. -/
lemma run_quoted (l : Lexer) (text word : List Char) :
    (text.flatMap fun c => if c = quote then [quote, backslash, quote, quote] else [c]).foldl step
      { l with mode := .single, word := some word } =
      { l with mode := .single, word := some (word ++ text) } := by
  induction text generalizing word with
  | nil => simp
  | cons c text ih =>
    rw [List.flatMap_cons, List.foldl_append]
    have hc : (if c = quote then [quote, backslash, quote, quote] else [c]).foldl step
        { l with mode := .single, word := some word } =
        { l with mode := .single, word := some (word ++ [c]) } := by
      split
      next hquote =>
        subst hquote
        rfl
      next hquote => simp [step, hquote, push]
    rw [hc]
    simpa using ih (word ++ [c])

lemma step_blank (hmode : l.mode = .plain) (hc : c ∈ blanks) : l.step c = l.delimit := by
  simp [step, hmode, hc]

lemma run_quoteShellWord (text : List Char) (hmode : l.mode = .plain) (hword : l.word = none)
    (hposition : l.commandPosition = false) :
    (quoteShellWord text).foldl step l = { l with word := some text } := by
  obtain ⟨mode, word, words, special, position⟩ := l
  cases hmode
  cases hword
  unfold quoteShellWord
  split
  next h =>
    cases text with
    | nil => cases h
    | cons first rest =>
      simp only [Bool.and_eq_true, List.all_cons, List.all_eq_true] at h
      rw [List.foldl_cons, step_bare rfl hposition h.2.1]
      exact run_bare rfl hposition h.2.2 [first]
  · rw [List.cons_append, List.foldl_cons, List.foldl_append]
    exact congrArg (step · quote) (run_quoted ⟨.plain, none, words, special, position⟩ text [])

/-- Between blanks and outside command position, a quoted word is read as one word with the text's
characters, and nothing in it is read as anything else. -/
theorem quoted_word_is_literal (l : Lexer) (text : List Char) (left right : Char)
    (hleft : left ∈ blanks)
    (hright : right ∈ blanks) (hplain : l.mode = .plain) (hposition : l.commandPosition = false) :
    (left :: quoteShellWord text ++ [right]).foldl step l =
    { l.delimit with words := l.delimit.words ++ [text] } := by
  obtain ⟨hmode, hword, hcommand⟩ : l.delimit.mode = .plain ∧ l.delimit.word = none ∧
      l.delimit.commandPosition = false := by
    unfold delimit
    split <;> simp [*]
  rw [List.cons_append, List.foldl_cons, step_blank hplain hleft, List.foldl_append]
  generalize l.delimit = m at *
  obtain ⟨mode, word, words, special, position⟩ := m
  rw [run_quoteShellWord text hmode hword hcommand]
  cases hword
  exact step_blank hmode hright

theorem quoted_word_is_literal_apostrophe :
    (' ' :: quoteShellWord ['i', 't', quote, 's'] ++ [' ']).foldl step
      ⟨.plain, some ['e'], [], [], false⟩ =
      ⟨.plain, none, [['e'], ['i', 't', quote, 's']], [], false⟩ :=
  quoted_word_is_literal _ _ ' ' ' ' (by decide) (by decide) rfl rfl

end Lexer
end Terrarium.Cli
