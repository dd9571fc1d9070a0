import Mathlib.Data.List.TakeDrop
import FullServiceMirror.Json.Document

/-!
# Texts that go on

A reader stops at the first character that it has no use for. What it made of a
text it makes of every longer text as well, provided that it did not use the
text up: of a number more digits might follow, an object is over with its brace.
So no object is the beginning of a longer JSON text, but for space at the end.
-/
namespace Json

variable {α β : Type}

/-- The reader knows by the last character it took that it is done. -/
def Closed (read : List Char → Option (α × List Char)) : Prop :=
  ∀ cs x rest more, read cs = some (x, rest) → read (cs ++ more) = some (x, rest ++ more)

/-- The reader may have to see the character after the last one it takes. -/
def Steady (read : List Char → Option (α × List Char)) : Prop :=
  ∀ cs x rest, read cs = some (x, rest) →
    rest <:+ cs ∧ (rest ≠ [] → ∀ more, read (cs ++ more) = some (x, rest ++ more))

/-- Readers that run one after another. -/
theorem Steady.bind {read : List Char → Option (α × List Char)} {next : α → List Char → Option (β × List Char)}
    (first : Steady read) (second : ∀ x, Steady (next x)) :
    Steady fun cs => (read cs).bind fun r => next r.1 r.2 := by
  intro cs y rest done
  obtain ⟨⟨x, between⟩, taken, done⟩ := Option.bind_eq_some_iff.mp done
  obtain ⟨suffix, longer⟩ := first cs x between taken
  obtain ⟨suffix', longer'⟩ := second x between y rest done
  refine ⟨suffix'.trans suffix, fun stops more => ?_⟩
  -- The second reader left something, so the first one did.
  have stops' : between ≠ [] := by
    rintro rfl
    exact stops (List.suffix_nil.mp suffix')
  exact Option.bind_eq_some_iff.mpr ⟨(x, between ++ more), longer stops' more, longer' stops more⟩

theorem Steady.pure (x : α) : Steady fun cs => some (x, cs) := by
  intro cs y rest done
  cases done
  exact ⟨List.suffix_refl _, fun _ _ => rfl⟩

theorem Steady.map {read : List Char → Option (α × List Char)} (steady : Steady read) (f : α → β) :
    Steady fun cs => (read cs).map fun r => (f r.1, r.2) := by
  intro cs y rest done
  obtain ⟨⟨x, rest'⟩, taken, same⟩ := Option.map_eq_some_iff.mp done
  cases same
  obtain ⟨suffix, longer⟩ := steady cs x _ taken
  exact ⟨suffix, fun stops more => Option.map_eq_some_iff.mpr ⟨_, longer stops more, rfl⟩⟩

/-- A reader that looks at the first character takes it, or is one that is steady itself. -/
theorem Steady.of_head {read : List Char → Option (α × List Char)}
    (nil : ∀ x rest, read [] = some (x, rest) → rest = [])
    (cons : ∀ c, Steady (fun cs => read (c :: cs)) ∨
      ∃ other, Steady other ∧ ∀ cs, read (c :: cs) = other (c :: cs)) : Steady read := by
  intro cs x rest done
  cases cs with
  | nil =>
    obtain rfl := nil x rest done
    exact ⟨List.suffix_refl _, fun stops => absurd rfl stops⟩
  | cons c cs =>
    rcases cons c with taken | ⟨other, steady, same⟩
    · obtain ⟨suffix, longer⟩ := taken cs x rest done
      exact ⟨suffix.trans (List.suffix_cons c cs), longer⟩
    · rw [same] at done
      obtain ⟨suffix, longer⟩ := steady (c :: cs) x rest done
      refine ⟨suffix, fun stops more => ?_⟩
      rw [List.cons_append, same, ← List.cons_append]
      exact longer stops more

/-- Space is skipped up to the same character. -/
theorem skipSpace_append (cs more : List Char) (stops : skipSpace cs ≠ []) :
    skipSpace (cs ++ more) = skipSpace cs ++ more := by
  have stops' : ¬ (skipSpace cs).isEmpty = true := by simpa using stops
  rw [skipSpace, List.dropWhile_append]
  exact if_neg stops'

/-- After blanks only, skipping goes on. -/
theorem skipSpace_append_blank (cs more : List Char) (blank : skipSpace cs = []) :
    skipSpace (cs ++ more) = skipSpace more := by
  rw [skipSpace] at blank
  rw [skipSpace, List.dropWhile_append, blank]
  rfl

/-! ## Numbers -/

theorem span_append (p : Char → Bool) (cs taken rest more : List Char)
    (cut : cs.span p = (taken, rest)) (stops : rest ≠ []) :
    (cs ++ more).span p = (taken, rest ++ more) := by
  rw [List.span_eq_takeWhile_dropWhile, Prod.mk.injEq] at cut ⊢
  obtain ⟨rfl, rfl⟩ := cut
  have short : (cs.takeWhile p).length ≠ cs.length := by
    intro all
    have whole := congrArg List.length (List.takeWhile_append_dropWhile (p := p) (l := cs))
    rw [List.length_append, all] at whole
    exact stops (List.length_eq_zero_iff.mp (by omega))
  have stops' : ¬ (cs.dropWhile p).isEmpty = true := by simpa using stops
  rw [List.takeWhile_append, if_neg short, List.dropWhile_append, if_neg stops']
  exact ⟨rfl, rfl⟩

theorem steady_readDigits : Steady readDigits := by
  intro cs digits rest done
  unfold readDigits at done
  split at done
  · cases done
  next digits' rest' present cut =>
    cases done
    constructor
    · rw [List.span_eq_takeWhile_dropWhile, Prod.mk.injEq] at cut
      rw [← cut.2]
      exact List.dropWhile_suffix _
    · intro stops more
      rw [readDigits, span_append _ _ _ _ more cut stops]
      split
      next equal =>
        cases equal
        exact absurd rfl present
      next equal =>
        cases equal
        rfl

theorem steady_readInt : Steady readInt := by
  apply Steady.of_head
  · intro x rest done
    cases done
  · intro c
    by_cases zero : c = '0'
    · subst zero
      exact Or.inl (Steady.pure _)
    · refine Or.inr ⟨readDigits, steady_readDigits, fun cs => ?_⟩
      rw [readInt]
      intro rest equal
      exact zero (List.cons.inj equal).1

theorem steady_readFraction : Steady readFraction := by
  apply Steady.of_head
  · intro x rest done
    cases done
    rfl
  · intro c
    by_cases point : c = '.'
    · subst point
      exact Or.inl (steady_readDigits.map fun digits => '.' :: digits)
    · refine Or.inr ⟨_, Steady.pure [], fun cs => ?_⟩
      rw [readFraction]
      intro rest equal
      exact point (List.cons.inj equal).1

/-- What an exponent is after its letter. -/
def readSigned (letter : Char) (cs : List Char) : Option (List Char × List Char) :=
  let (sign, cs) := match cs with
    | '+' :: cs => (['+'], cs)
    | '-' :: cs => (['-'], cs)
    | cs => ([], cs)
  (readDigits cs).map fun (digits, rest) => (letter :: sign ++ digits, rest)

theorem steady_readSigned (letter : Char) : Steady (readSigned letter) := by
  have digits (sign : List Char) := steady_readDigits.map fun digits => letter :: sign ++ digits
  apply Steady.of_head
  · intro x rest done
    cases done
  · intro c
    by_cases plus : c = '+'
    · subst plus
      exact Or.inl (digits ['+'])
    by_cases minus : c = '-'
    · subst minus
      exact Or.inl (digits ['-'])
    · refine Or.inr ⟨_, digits [], fun cs => ?_⟩
      unfold readSigned
      split
      next equal =>
        split at equal
        next plus' => exact absurd (List.cons.inj plus').1 plus
        next minus' => exact absurd (List.cons.inj minus').1 minus
        · cases equal
          rfl

theorem readExponent_cons (c : Char) (cs : List Char) : readExponent (c :: cs) =
    if c = 'e' || c = 'E' then readSigned c cs else some ([], c :: cs) := rfl

theorem steady_readExponent : Steady readExponent := by
  apply Steady.of_head
  · intro x rest done
    cases done
    rfl
  · intro c
    by_cases letter : (c = 'e' || c = 'E') = true
    · simp only [readExponent_cons, if_pos letter]
      exact Or.inl (steady_readSigned c)
    · refine Or.inr ⟨_, Steady.pure [], fun cs => ?_⟩
      rw [readExponent_cons, if_neg letter]

/-- A number without its sign. -/
def readUnsigned (minus : List Char) (cs : List Char) : Option (Document × List Char) := do
  let (int, cs) ← readInt cs
  let (frac, cs) ← readFraction cs
  let (exp, cs) ← readExponent cs
  return (.number (minus ++ int ++ frac ++ exp), cs)

theorem steady_readUnsigned (minus : List Char) : Steady (readUnsigned minus) :=
  steady_readInt.bind fun int => steady_readFraction.bind fun frac => steady_readExponent.bind fun exp =>
    Steady.pure (Document.number (minus ++ int ++ frac ++ exp))

theorem steady_readNumber : Steady readNumber := by
  apply Steady.of_head
  · intro x rest done
    cases done
  · intro c
    by_cases minus : c = '-'
    · subst minus
      exact Or.inl (steady_readUnsigned ['-'])
    · refine Or.inr ⟨_, steady_readUnsigned [], fun cs => ?_⟩
      unfold readNumber
      split
      next equal =>
        split at equal
        next minus' => exact absurd (List.cons.inj minus').1 minus
        · cases equal
          rfl

/-- A number begins with its sign or a digit. -/
theorem head_of_readNumber (c : Char) (cs : List Char) (r : Document × List Char)
    (done : readNumber (c :: cs) = some r) : c = '-' ∨ c.isDigit = true := by
  by_cases minus : c = '-'
  · exact Or.inl minus
  right
  by_cases zero : c = '0'
  · subst zero
    decide
  have unsigned : readUnsigned [] (c :: cs) = some r := by
    rw [← done, readNumber]
    · rfl
    · intro rest equal
      exact minus (List.cons.inj equal).1
  obtain ⟨⟨int, rest⟩, taken, _⟩ := Option.bind_eq_some_iff.mp unsigned
  rw [readInt] at taken
  · by_contra other
    simp [readDigits, List.span_eq_takeWhile_dropWhile, other] at taken
  · intro rest equal
    exact zero (List.cons.inj equal).1

/-! ## Strings -/

theorem closed_readUnit : Closed readUnit := by
  intro cs x rest more done
  unfold readUnit at done
  split at done
  next a b c d rest' =>
    rw [List.cons_append, List.cons_append, List.cons_append, List.cons_append, readUnit]
    revert done
    cases hexDigit a <;> cases hexDigit b <;> cases hexDigit c <;> cases hexDigit d <;> intro done <;> cases done
    rfl
  · cases done

theorem closed_readUnicode : Closed readUnicode := by
  intro cs x rest more done
  obtain ⟨⟨unit, after⟩, taken, done⟩ := Option.bind_eq_some_iff.mp done
  have taken' := closed_readUnit cs unit after more taken
  refine Option.bind_eq_some_iff.mpr ⟨_, taken', ?_⟩
  dsimp only at done ⊢
  split at done
  next high =>
    rw [if_pos high]
    split at done
    next cs' =>
      -- A high surrogate needs a low one after it.
      obtain ⟨⟨low, after'⟩, taken_low, done⟩ := Option.bind_eq_some_iff.mp done
      refine Option.bind_eq_some_iff.mpr ⟨_, closed_readUnit cs' low after' more taken_low, ?_⟩
      dsimp only at done ⊢
      split at done
      next inside =>
        obtain ⟨rfl, rfl⟩ := Prod.mk.inj (Option.some.inj done)
        exact if_pos inside
      · cases done
    · cases done
  next other =>
    rw [if_neg other]
    split at done
    · cases done
    next plain =>
      obtain ⟨rfl, rfl⟩ := Prod.mk.inj (Option.some.inj done)
      exact if_neg plain

theorem closed_readChar : Closed readChar := by
  intro cs x rest more done
  unfold readChar at done
  split at done
  next c rest' =>
    rw [List.cons_append, List.cons_append, readChar]
    split_ifs at done ⊢
    all_goals first
      | exact closed_readUnicode rest' x rest more done
      | obtain ⟨rfl, rfl⟩ := Prod.mk.inj (Option.some.inj done)
        rfl
  next c rest' other =>
    split_ifs at done with control
    obtain ⟨rfl, rfl⟩ := Prod.mk.inj (Option.some.inj done)
    rw [List.cons_append, readChar, if_neg control]
    intro c' rest escape _
    apply control
    simp [escape]
  · cases done

theorem readChars_append (rounds rounds' : Nat) (enough : rounds ≤ rounds') (cs : List Char)
    (chars rest more : List Char) (done : readChars rounds cs = some (chars, rest)) :
    readChars rounds' (cs ++ more) = some (chars, rest ++ more) := by
  induction rounds generalizing rounds' cs chars with
  | zero => cases done
  | succ rounds ih =>
    obtain ⟨rounds', rfl⟩ : ∃ fewer, rounds' = fewer + 1 := ⟨rounds' - 1, by omega⟩
    unfold readChars at done
    split at done
    · cases done
    · cases done
      rfl
    next cs' _ _ _ same unclosed =>
      cases same
      obtain ⟨⟨c, after⟩, taken, done⟩ := Option.bind_eq_some_iff.mp done
      obtain ⟨⟨others, rest'⟩, taken', done⟩ := Option.bind_eq_some_iff.mp done
      cases done
      have taken := closed_readChar _ _ _ more taken
      have taken' := ih rounds' (by omega) _ _ taken'
      rw [readChars]
      · exact Option.bind_eq_some_iff.mpr ⟨_, taken, Option.bind_eq_some_iff.mpr ⟨_, taken', rfl⟩⟩
      -- The first character is still no quotation mark.
      · intro rest quote
        cases cs' with
        | nil => contradiction
        | cons c' cs' =>
          rw [List.cons_append, List.cons.injEq] at quote
          exact unclosed cs' (by rw [quote.1])

theorem closed_readString : Closed readString := by
  intro cs s rest more done
  obtain ⟨⟨chars, rest'⟩, taken, done⟩ := Option.map_eq_some_iff.mp done
  cases done
  have longer : cs.length + 1 ≤ (cs ++ more).length + 1 := by simp
  exact Option.map_eq_some_iff.mpr ⟨_, readChars_append _ _ longer cs chars _ more taken, rfl⟩

/-! ## Values -/

/-- Nothing that may follow belongs to the value. -/
def Final (d : Document) (rest : List Char) : Prop := rest ≠ [] ∨ ∀ text, d ≠ .number text

theorem readValue_number (bound : Nat) (c : Char) (cs : List Char) (starts : c = '-' ∨ c.isDigit = true) :
    readValue (bound + 1) (c :: cs) = readNumber (c :: cs) := by
  unfold readValue
  split <;> first | rfl | (rename_i equal; cases equal; simp at starts)

theorem readNumber_document (cs : List Char) (d : Document) (rest : List Char)
    (done : readNumber cs = some (d, rest)) : ∃ text, d = .number text := by
  obtain ⟨_, _, done⟩ := Option.bind_eq_some_iff.mp done
  obtain ⟨_, _, done⟩ := Option.bind_eq_some_iff.mp done
  obtain ⟨_, _, done⟩ := Option.bind_eq_some_iff.mp done
  cases done
  exact ⟨_, rfl⟩

/-- What follows an opening bracket: its counterpart, or something in between. -/
def readBody (close : Char) (empty : α) (read : List Char → Option (α × List Char)) (cs : List Char) :
    Option (α × List Char) :=
  match skipSpace cs with
  | c :: rest => if c = close then some (empty, rest) else read (c :: rest)
  | [] => none

theorem readBody_append (close : Char) (empty : α) {read read' : List Char → Option (α × List Char)}
    (more : List Char)
    (longer : ∀ cs x rest, read cs = some (x, rest) → read' (cs ++ more) = some (x, rest ++ more))
    (cs : List Char) (x : α) (rest : List Char) (done : readBody close empty read cs = some (x, rest)) :
    readBody close empty read' (cs ++ more) = some (x, rest ++ more) := by
  unfold readBody at done
  split at done
  next c rest' skipped =>
    have stops : skipSpace cs ≠ [] := by rw [skipped]; exact List.cons_ne_nil _ _
    rw [readBody, skipSpace_append cs more stops, skipped, List.cons_append]
    dsimp only
    split at done
    next closes =>
      cases done
      rw [if_pos closes]
    next opens =>
      rw [if_neg opens]
      exact longer _ x rest done
  · cases done

theorem readItems_nil (bound : Nat) : readItems bound [] = none := by
  cases bound with
  | zero => rfl
  | succ bound => cases bound <;> rfl

theorem readValue_array (bound : Nat) (cs : List Char) : readValue (bound + 1) ('[' :: cs) =
    readBody ']' (.array []) (fun cs => (readItems bound cs).map fun r => (.array r.1, r.2)) cs := by
  rw [readValue, readBody]
  split
  next skipped => rw [skipped]; rfl
  next opens =>
    split
    next c rest skipped =>
      have different : c ≠ ']' := by
        rintro rfl
        exact opens rest skipped
      rw [if_neg different, skipped]
    next skipped => rw [skipped, readItems_nil]; rfl

theorem readValue_object (bound : Nat) (cs : List Char) : readValue (bound + 1) ('{' :: cs) =
    readBody '}' (.object []) (fun cs => (readMembers bound cs).map fun r => (.object r.1, r.2)) cs := by
  rw [readValue, readBody]
  split
  next skipped => rw [skipped]; rfl
  next opens =>
    split
    next c rest skipped =>
      have different : c ≠ '}' := by
        rintro rfl
        exact opens rest skipped
      rw [if_neg different, skipped]
    next skipped =>
      rw [skipped]
      cases bound <;> rfl

variable {bound : Nat}

/-- Every larger bound reads the same of a longer text. -/
def ReadsOn (read : Nat → List Char → Option (α × List Char)) (bound : Nat) : Prop :=
  ∀ cs x rest, read bound cs = some (x, rest) → ∀ more bound', bound ≤ bound' →
    read bound' (cs ++ more) = some (x, rest ++ more)

def ReadsValueOn (bound : Nat) : Prop :=
  ∀ cs d rest, readValue bound cs = some (d, rest) → Final d rest → ∀ more bound', bound ≤ bound' →
    readValue bound' (cs ++ more) = some (d, rest ++ more)

theorem readsValueOn_succ (items : ReadsOn readItems bound) (members : ReadsOn readMembers bound) :
    ReadsValueOn (bound + 1) := by
  intro cs d rest done final more bound' larger
  obtain ⟨bound', rfl⟩ : ∃ fewer, bound' = fewer + 1 := ⟨bound' - 1, by omega⟩
  have larger := Nat.le_of_succ_le_succ larger
  cases cs with
  | nil => cases done
  | cons c cs =>
    -- The two recursive cases come first; the others do not read the bound.
    by_cases array : c = '['
    · subst array
      rw [readValue_array] at done
      rw [List.cons_append, readValue_array]
      refine readBody_append _ _ more (fun cs d rest done => ?_) cs d rest done
      obtain ⟨_, taken, same⟩ := Option.map_eq_some_iff.mp done
      cases same
      exact Option.map_eq_some_iff.mpr ⟨_, items _ _ _ taken more bound' larger, rfl⟩
    by_cases object : c = '{'
    · subst object
      rw [readValue_object] at done
      rw [List.cons_append, readValue_object]
      refine readBody_append _ _ more (fun cs d rest done => ?_) cs d rest done
      obtain ⟨_, taken, same⟩ := Option.map_eq_some_iff.mp done
      cases same
      exact Option.map_eq_some_iff.mpr ⟨_, members _ _ _ taken more bound' larger, rfl⟩
    unfold readValue at done
    split at done
    next equal =>
      cases equal
      cases done
      rfl
    next equal =>
      cases equal
      cases done
      rfl
    next equal =>
      cases equal
      cases done
      rfl
    next equal =>
      cases equal
      obtain ⟨_, taken, same⟩ := Option.map_eq_some_iff.mp done
      cases same
      exact Option.map_eq_some_iff.mpr ⟨_, closed_readString _ _ _ more taken, rfl⟩
    next equal => exact absurd (List.cons.inj equal).1 array
    next equal => exact absurd (List.cons.inj equal).1 object
    · -- A number ends before a character that is left.
      obtain ⟨text, rfl⟩ := readNumber_document _ _ _ done
      rcases final with stops | other
      · rw [List.cons_append, readValue_number bound' c _ (head_of_readNumber c cs _ done), ← List.cons_append]
        exact (steady_readNumber _ _ _ done).2 stops more
      · exact absurd rfl (other text)

theorem readsOn_items_succ (value : ReadsValueOn bound) (items : ReadsOn readItems bound) :
    ReadsOn readItems (bound + 1) := by
  intro cs docs rest done more bound' larger
  obtain ⟨bound', rfl⟩ : ∃ fewer, bound' = fewer + 1 := ⟨bound' - 1, by omega⟩
  have larger := Nat.le_of_succ_le_succ larger
  obtain ⟨⟨item, after⟩, taken, done⟩ := Option.bind_eq_some_iff.mp done
  dsimp only at done
  -- After an item a comma or a bracket was found, so the item is final.
  have stops : skipSpace after ≠ [] := by
    intro nothing
    rw [nothing] at done
    cases done
  have final : Final item after := by
    left
    rintro rfl
    exact stops rfl
  refine Option.bind_eq_some_iff.mpr ⟨_, value _ _ _ taken final more bound' larger, ?_⟩
  dsimp only
  rw [skipSpace_append after more stops]
  split at done
  next next' skipped =>
    obtain ⟨⟨others, rest'⟩, taken', done⟩ := Option.bind_eq_some_iff.mp done
    cases done
    -- Nor can the text end after a comma.
    have stops' : skipSpace next' ≠ [] := by
      intro nothing
      rw [nothing, readItems_nil] at taken'
      cases taken'
    have taken' := items _ _ _ taken' more bound' larger
    rw [← skipSpace_append next' more stops'] at taken'
    rw [skipped]
    exact Option.bind_eq_some_iff.mpr ⟨_, taken', rfl⟩
  next rest' skipped =>
    cases done
    rw [skipped]
    rfl
  · cases done

theorem readValue_nil (bound : Nat) : readValue bound [] = none := by
  cases bound <;> rfl

theorem readMembers_nil (bound : Nat) : readMembers bound [] = none := by
  cases bound <;> rfl

theorem readsOn_members_succ (value : ReadsValueOn bound) (members : ReadsOn readMembers bound) :
    ReadsOn readMembers (bound + 1) := by
  intro cs entries rest done more bound' larger
  obtain ⟨bound', rfl⟩ : ∃ fewer, bound' = fewer + 1 := ⟨bound' - 1, by omega⟩
  have larger := Nat.le_of_succ_le_succ larger
  unfold readMembers at done
  split at done
  next same =>
    cases same
    obtain ⟨⟨key, after⟩, taken, done⟩ := Option.bind_eq_some_iff.mp done
    rw [List.cons_append, readMembers]
    refine Option.bind_eq_some_iff.mpr ⟨_, closed_readString _ _ _ more taken, ?_⟩
    dsimp only at done ⊢
    split at done
    next colon skipped =>
      rw [skipSpace_append after more (by rw [skipped]; exact List.cons_ne_nil _ _), skipped]
      obtain ⟨⟨item, after'⟩, taken', done⟩ := Option.bind_eq_some_iff.mp done
      dsimp only at done
      -- A value was read after the colon.
      have value_stops : skipSpace colon ≠ [] := by
        intro nothing
        rw [nothing, readValue_nil] at taken'
        cases taken'
      have stops : skipSpace after' ≠ [] := by
        intro nothing
        rw [nothing] at done
        cases done
      have final : Final item after' := by
        left
        rintro rfl
        exact stops rfl
      have taken' := value _ _ _ taken' final more bound' larger
      rw [← skipSpace_append colon more value_stops] at taken'
      refine Option.bind_eq_some_iff.mpr ⟨_, taken', ?_⟩
      dsimp only
      rw [skipSpace_append after' more stops]
      split at done
      next comma skipped' =>
        obtain ⟨⟨others, rest'⟩, taken'', done⟩ := Option.bind_eq_some_iff.mp done
        cases done
        have stops' : skipSpace comma ≠ [] := by
          intro nothing
          rw [nothing, readMembers_nil] at taken''
          cases taken''
        have taken'' := members _ _ _ taken'' more bound' larger
        rw [← skipSpace_append comma more stops'] at taken''
        rw [skipped']
        exact Option.bind_eq_some_iff.mpr ⟨_, taken'', rfl⟩
      next skipped' =>
        cases done
        rw [skipped']
        rfl
      · cases done
    · cases done
  · cases done

/-- The three readers agree on longer texts. -/
theorem readsOn (bound : Nat) :
    ReadsValueOn bound ∧ ReadsOn readItems bound ∧ ReadsOn readMembers bound := by
  induction bound with
  | zero => exact ⟨nofun, nofun, nofun⟩
  | succ bound ih =>
    obtain ⟨value, items, members⟩ := ih
    exact ⟨readsValueOn_succ items members, readsOn_items_succ value items, readsOn_members_succ value members⟩

/-! ## Texts -/

theorem document_some_iff (text : String) (d : Document) : document text = some d ↔
    ∃ rest, readValue (2 * text.toList.length + 2) (skipSpace text.toList) = some (d, rest) ∧
      skipSpace rest = [] := by
  simp only [document]
  split
  next d' rest read =>
    rw [read]
    split
    next blank =>
      constructor
      · rintro ⟨⟩
        exact ⟨rest, rfl, blank⟩
      · rintro ⟨_, ⟨⟩, _⟩
        rfl
    next left =>
      constructor
      · rintro ⟨⟩
      · rintro ⟨_, ⟨⟩, blank⟩
        exact absurd blank left
  next unread =>
    rw [unread]
    constructor
    · rintro ⟨⟩
    · rintro ⟨_, ⟨⟩, _⟩

/-- **No object is the beginning of another text.** What follows the text of an
object in a longer JSON text is space. -/
theorem document_append (text more : String) (members : List (String × Document)) (d : Document)
    (object : document text = some (.object members)) (longer : document (text ++ more) = some d) :
    skipSpace more.toList = [] := by
  obtain ⟨rest, read, blank⟩ := (document_some_iff text _).mp object
  obtain ⟨rest', read', blank'⟩ := (document_some_iff _ d).mp longer
  have stops : skipSpace text.toList ≠ [] := by
    intro nothing
    rw [nothing, readValue_nil] at read
    cases read
  -- An object ends with its brace, whatever follows.
  have final : Final (.object members) rest := Or.inr nofun
  have larger : 2 * text.toList.length + 2 ≤ 2 * (text ++ more).toList.length + 2 := by
    rw [String.toList_append, List.length_append]
    omega
  -- The reader of the longer text stops at the same place.
  have reads_on := (readsOn _).1 _ _ _ read final more.toList _ larger
  rw [← skipSpace_append _ _ stops, ← String.toList_append, read'] at reads_on
  cases reads_on
  rwa [skipSpace_append_blank _ _ blank] at blank'

/-- The text of a document is not blank. -/
theorem not_blank_of_document (text : String) (d : Document) (read : document text = some d) :
    skipSpace text.toList ≠ [] := by
  obtain ⟨rest, read, _⟩ := (document_some_iff text d).mp read
  intro nothing
  rw [nothing, readValue_nil] at read
  cases read

/-- A text put together of texts of objects is one of them. -/
theorem mem_of_document_join (texts : List String) (d : Document)
    (objects : ∀ text ∈ texts, ∃ members, document text = some (.object members))
    (read : document (String.join texts) = some d) : ∃ text ∈ texts, String.join texts = text := by
  cases texts with
  | nil => exact absurd rfl (not_blank_of_document _ d read)
  | cons text rest =>
    obtain ⟨members, object⟩ := objects text List.mem_cons_self
    cases rest with
    | nil => exact ⟨text, List.mem_cons_self, by simp⟩
    | cons text' rest =>
      rw [String.join_cons, String.join_cons] at read
      have blank := document_append text _ members d object read
      obtain ⟨members', object'⟩ := objects text' (List.mem_cons_of_mem _ List.mem_cons_self)
      have stops := not_blank_of_document text' _ object'
      rw [String.toList_append, skipSpace_append _ _ stops] at blank
      exact absurd (List.append_eq_nil_iff.mp blank).1 stops

end Json
