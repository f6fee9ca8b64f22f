import FtpServer.Command

/-!
# The grammar of control lines

A control line is a verb of ASCII letters, alone or with an argument behind one space.  Reading
accepts these lines and no others, tells a known verb in any case, and keeps the argument as it
stands; what a command is called is what it is read from.
-/

namespace FtpServer.Command

structure IsVerb (verb : String) : Prop where
  ne_empty : verb ≠ ""
  letters : ∀ c ∈ verb.toList, c.isAlpha = true

/-- A verb without an argument, or with one behind a space. -/
inductive Written (verb : String) : (arg line : String) → Prop
  | alone : Written verb "" verb
  | followed (arg : String) : Written verb arg (verb ++ " " ++ arg)

inductive Malformed : String → CommandError → Prop
  | empty : Malformed "" .empty
  /-- Behind the letters comes neither a space nor the end. -/
  | broken {verb rest : String} (hverb : IsVerb verb) (hrest : rest ≠ "")
      (hbreak : ∀ c, rest.toList.head? = some c → c.isAlpha = false ∧ c ≠ ' ') :
      Malformed (verb ++ rest) (.malformedVerb verb)
  /-- There are no letters to begin with. -/
  | verbless {line : String} (hline : line ≠ "")
      (hhead : ∀ c, line.toList.head? = some c → c.isAlpha = false) :
      Malformed line (.malformedVerb (String.ofList (line.toList.take 16)))

def knownVerbs : List String :=
  ["USER", "PASS", "SYST", "TYPE", "NOOP", "PORT", "PASV", "CWD", "CDUP", "PWD", "MKD", "RMD",
    "DELE", "RNFR", "RNTO", "LIST", "RETR", "STOR", "ABOR", "QUIT"]

def isUnknown : Command → Bool
  | .unknown _ => true
  | _ => false

instance (verb : String) : Decidable (IsVerb verb) :=
  decidable_of_iff (verb ≠ "" ∧ verb.toList.all Char.isAlpha = true)
    ⟨fun h => ⟨h.1, List.all_eq_true.1 h.2⟩, fun h => ⟨h.ne_empty, List.all_eq_true.2 h.letters⟩⟩

variable {verb verb' arg line : String} {c : Command} {e : CommandError}

@[simp] theorem verb_ofVerb (verb arg : String) : (ofVerb verb arg).verb = verb := by
  unfold ofVerb
  split <;> rfl

/-- The argument goes with the command, or the command takes none. -/
theorem argument?_ofVerb (verb arg : String) :
    (ofVerb verb arg).argument? = some arg ∨ (ofVerb verb arg).argument? = none := by
  unfold ofVerb
  split <;> simp [argument?]

theorem isUnknown_ofVerb (verb arg : String) :
    (ofVerb verb arg).isUnknown = true ↔ verb ∉ knownVerbs := by
  unfold ofVerb
  split <;> simp_all [isUnknown, knownVerbs]

theorem ofVerb_verb (hc : c.isUnknown = false) (harg : ∀ x, c.argument? = some x → x = arg) :
    ofVerb c.verb arg = c := by
  cases c with
  | unknown verb => cases hc
  | syst | noop | pasv | cdup | pwd | abor | quit => rfl
  | _ x =>
    obtain rfl := harg x rfl
    rfl

theorem toUpper_eq (s : String) : s.toUpper = String.ofList (s.toList.map Char.toUpper) :=
  String.map_eq_internal

theorem isVerb_verb (hc : c.isUnknown = false) : IsVerb c.verb ∧ c.verb.toUpper = c.verb := by
  have hknown : ∀ v ∈ knownVerbs, IsVerb v ∧ String.ofList (v.toList.map Char.toUpper) = v := by
    decide
  have hmem : c.verb ∈ knownVerbs := by
    have hnot := isUnknown_ofVerb c.verb ((c.argument?).getD "")
    rw [ofVerb_verb hc fun x hx => by rw [hx]; rfl, hc] at hnot
    simpa using hnot
  rw [toUpper_eq]
  exact hknown _ hmem

/-- The letters that a line begins with are found, and what is behind them. -/
theorem leading_letters (rest : List Char) (hletters : ∀ c ∈ verb.toList, c.isAlpha = true)
    (hrest : ∀ c, rest.head? = some c → c.isAlpha = false) :
    (verb.toList ++ rest).takeWhile Char.isAlpha = verb.toList ∧
      (verb.toList ++ rest).dropWhile Char.isAlpha = rest := by
  rw [List.takeWhile_append_of_pos hletters, List.dropWhile_append_of_pos hletters]
  cases rest with
  | nil => simp
  | cons c rest => simp [hrest c rfl]

theorem toList_ne_nil (hverb : IsVerb verb) : verb.toList ≠ [] :=
  fun h => hverb.ne_empty (String.toList_eq_nil_iff.1 h)

theorem parse_written (hverb : IsVerb verb) (h : Written verb arg line) :
    parse line = .ok (ofVerb verb.toUpper arg) := by
  rw [toUpper_eq]
  cases h with
  | alone =>
    obtain ⟨htake, hdrop⟩ := leading_letters [] hverb.letters (by simp)
    rw [List.append_nil] at htake hdrop
    simp only [parse, htake, hdrop, if_neg (toList_ne_nil hverb)]
  | followed arg =>
    obtain ⟨htake, hdrop⟩ := leading_letters (' ' :: arg.toList) hverb.letters
      fun c hc => by
        obtain rfl := Option.some.inj hc
        rfl
    have hline : (verb ++ " " ++ arg).toList = verb.toList ++ ' ' :: arg.toList := by simp
    simp only [parse, hline, htake, hdrop, if_neg (toList_ne_nil hverb), String.ofList_toList]

/-- What is malformed is refused, and the error tells what is wrong. -/
theorem parse_malformed (h : Malformed line e) : parse line = .error e := by
  cases h with
  | empty => rfl
  | @broken verb rest hverb hrest hbreak =>
    obtain ⟨htake, hdrop⟩ := leading_letters _ hverb.letters fun c hc => (hbreak c hc).1
    have hline : (verb ++ rest).toList = verb.toList ++ rest.toList := by simp
    obtain ⟨c, more, hmore⟩ := List.exists_cons_of_ne_nil (mt String.toList_eq_nil_iff.1 hrest)
    have hc : c ≠ ' ' := (hbreak c (by rw [hmore]; rfl)).2
    simp only [parse, hline, htake, hdrop, if_neg (toList_ne_nil hverb)]
    rw [hmore]
    split
    next heq => cases heq
    next heq => exact absurd (List.cons.inj heq).1 hc
    next => rw [String.ofList_toList]
  | verbless hline hhead =>
    have hletters : ∀ c ∈ "".toList, c.isAlpha = true := by simp
    obtain ⟨htake, hdrop⟩ := leading_letters line.toList hletters hhead
    have hne : line.toList ≠ [] := mt String.toList_eq_nil_iff.1 hline
    simp only [String.toList_empty, List.nil_append] at htake hdrop
    simp only [parse, htake, hdrop, if_neg hne, if_true, excerptLength]

theorem written_or_malformed (line : String) :
    (∃ verb arg, IsVerb verb ∧ Written verb arg line) ∨ ∃ e, Malformed line e := by
  let run := line.toList.takeWhile Char.isAlpha
  let rest := line.toList.dropWhile Char.isAlpha
  have hparts : String.ofList run ++ String.ofList rest = line := by
    rw [← String.ofList_append, List.takeWhile_append_dropWhile, String.ofList_toList]
  have hstop : ∀ c, rest.head? = some c → c.isAlpha = false := by
    intro c hc
    have hhead := List.head?_dropWhile_not Char.isAlpha line.toList
    rw [show line.toList.dropWhile Char.isAlpha = rest from rfl, hc] at hhead
    simpa using hhead
  by_cases hrun : run = []
  · rw [hrun, String.ofList_nil, String.empty_append] at hparts
    right
    by_cases hline : line = ""
    · subst hline
      exact ⟨_, .empty⟩
    · refine ⟨_, .verbless hline fun c hc => hstop c ?_⟩
      rwa [← hparts, String.toList_ofList] at hc
  · have hverb : IsVerb (String.ofList run) := by
      refine ⟨by simpa using hrun, fun c hc => ?_⟩
      rw [String.toList_ofList] at hc
      exact List.all_eq_true.1 List.all_takeWhile c hc
    cases hrest : rest with
    | nil =>
      rw [hrest, String.ofList_nil, String.append_empty] at hparts
      exact .inl ⟨_, "", hverb, hparts ▸ .alone⟩
    | cons c more =>
      by_cases hc : c = ' '
      · refine .inl ⟨_, String.ofList more, hverb, ?_⟩
        rw [← hparts, hrest, hc, show ' ' :: more = " ".toList ++ more from rfl,
          String.ofList_append, String.ofList_toList, ← String.append_assoc]
        exact .followed _
      · rw [← hparts]
        refine .inr ⟨_, .broken hverb (by simp [hrest]) fun d hd => ?_⟩
        rw [String.toList_ofList] at hd
        refine ⟨hstop d hd, ?_⟩
        rw [hrest] at hd
        exact Option.some.inj hd ▸ hc

theorem parse_eq_error_iff : parse line = .error e ↔ Malformed line e := by
  refine ⟨fun h => ?_, parse_malformed⟩
  rcases written_or_malformed line with ⟨verb, arg, hverb, hwritten⟩ | ⟨e', hmalformed⟩
  · rw [parse_written hverb hwritten] at h
    cases h
  · rw [parse_malformed hmalformed] at h
    exact Except.error.inj h ▸ hmalformed

theorem written_of_parse (h : parse line = .ok c) :
    ∃ verb arg, IsVerb verb ∧ Written verb arg line ∧ c = ofVerb verb.toUpper arg := by
  rcases written_or_malformed line with ⟨verb, arg, hverb, hwritten⟩ | ⟨e, hmalformed⟩
  · rw [parse_written hverb hwritten] at h
    exact ⟨verb, arg, hverb, hwritten, (Except.ok.inj h).symm⟩
  · rw [parse_malformed hmalformed] at h
    cases h

theorem parse_eq_ok_iff :
    (∃ c, parse line = .ok c) ↔ ∃ verb arg, IsVerb verb ∧ Written verb arg line := by
  refine ⟨fun ⟨c, hc⟩ => ?_, fun ⟨verb, arg, hverb, h⟩ => ⟨_, parse_written hverb h⟩⟩
  obtain ⟨verb, arg, hverb, hwritten, -⟩ := written_of_parse hc
  exact ⟨verb, arg, hverb, hwritten⟩

/-- Reading accepts a verb of letters, alone or with an argument behind one space, and nothing else.
The command is called by the verb in capitals, has the argument as it stands if it takes one, and is
unknown only if no known verb is meant, so the case of the verb does not matter; a known command is
read from what it is called and its argument.  Every other line is refused for what is wrong with
it. -/
theorem parse_follows_grammar :
    (∀ line, (∃ c, parse line = .ok c) ↔ ∃ verb arg, IsVerb verb ∧ Written verb arg line) ∧
    (∀ verb arg line c, IsVerb verb → Written verb arg line → parse line = .ok c →
      c.verb = verb.toUpper ∧ (c.argument? = some arg ∨ c.argument? = none) ∧
      (c.isUnknown = true ↔ verb.toUpper ∉ knownVerbs)) ∧
    (∀ verb verb' arg line line', IsVerb verb → IsVerb verb' → verb'.toUpper = verb.toUpper →
      Written verb arg line → Written verb' arg line' → parse line' = parse line) ∧
    (∀ c arg, c.isUnknown = false → (∀ x, c.argument? = some x → x = arg) →
      parse (c.verb ++ " " ++ arg) = .ok c) ∧
    ∀ line e, parse line = .error e ↔ Malformed line e := by
  refine ⟨fun line => parse_eq_ok_iff, fun verb arg line c hverb hwritten hparse => ?_,
    fun verb verb' arg line line' hverb hverb' hcase hwritten hwritten' => ?_,
    fun c arg hc harg => ?_, fun line e => parse_eq_error_iff⟩
  · rw [parse_written hverb hwritten] at hparse
    obtain rfl := Except.ok.inj hparse
    exact ⟨verb_ofVerb _ _, argument?_ofVerb _ _, isUnknown_ofVerb _ _⟩
  · rw [parse_written hverb hwritten, parse_written hverb' hwritten', hcase]
  · obtain ⟨hverb, hcapitals⟩ := isVerb_verb hc
    rw [parse_written hverb (.followed arg), hcapitals, ofVerb_verb hc harg]

/-- A verb in mixed case, and an argument that begins with a space. -/
theorem parse_follows_grammar_in_any_case :
    parse "rEtR  two  spaces " = parse "RETR  two  spaces " ∧
      parse "RETR  two  spaces " = .ok (.retr " two  spaces ") := by
  obtain ⟨-, -, hcase, hback, -⟩ := parse_follows_grammar
  exact ⟨hcase "RETR" "rEtR" " two  spaces " _ _ (by decide) (by decide)
    (by simp only [toUpper_eq]; decide) (.followed _) (.followed _),
    hback (.retr " two  spaces ") " two  spaces " rfl fun x hx => (Option.some.inj hx).symm⟩

end FtpServer.Command
