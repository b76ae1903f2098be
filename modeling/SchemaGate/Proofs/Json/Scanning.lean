import Mathlib.Data.List.Basic
import SchemaGate.Json.Token
import SchemaGate.Json.Writer

/-!
# Texts that scan to tokens

A text is cut token by token, however many steps there are (`scan_of_scans`). A piece of a text
lexes to tokens when it is cut so in front of whatever may follow it, which is anything that a number
does not run on into (`Lexes`): blanks in front of it change nothing, pieces are put together one
behind the other, and quoted strings and numbers are pieces (`lexes_quote`, `lexes_number`).
-/

namespace SchemaGate.Json

/-- A text consists of tokens, with blanks between them. -/
inductive Scans : List Char → List Token → Prop
  | nil {cs} (h : cs.dropWhile isSpace = []) : Scans cs []
  | cons {cs front rest token tokens} (hfront : cs.dropWhile isSpace = front)
    (htoken : scanToken? front = some (token, rest)) (hlt : rest.length < front.length)
    (h : Scans rest tokens) : Scans cs (token :: tokens)

theorem scanFrom_of_scans {cs : List Char} {tokens : List Token} (h : Scans cs tokens) :
    ∀ fuel done, cs.length < fuel → scanFrom fuel done cs = some (done.reverse ++ tokens) := by
  induction h with
  | nil hblank =>
    intro fuel done hfuel
    obtain ⟨fuel, rfl⟩ := Nat.exists_eq_succ_of_ne_zero (Nat.ne_zero_of_lt hfuel)
    rw [scanFrom, hblank, List.append_nil]
  | @cons cs front rest token tokens hfront htoken hlt _ ih =>
    intro fuel done hfuel
    obtain ⟨fuel, rfl⟩ := Nat.exists_eq_succ_of_ne_zero (Nat.ne_zero_of_lt hfuel)
    have hle : front.length ≤ cs.length := hfront ▸ (List.dropWhile_sublist isSpace).length_le
    obtain ⟨c, front, rfl⟩ := List.exists_cons_of_length_pos (Nat.zero_lt_of_lt hlt)
    rw [scanFrom, hfront]
    simp only [htoken]
    change scanFrom fuel (token :: done) rest = _
    rw [ih fuel (token :: done) (by omega), List.reverse_cons, List.append_assoc]
    rfl

theorem scan_of_scans {s : String} {tokens : List Token} (h : Scans s.toList tokens) :
    scan s = some tokens :=
  scanFrom_of_scans h _ [] (Nat.lt_succ_self _)

theorem Scans.blank {cs blanks : List Char} {tokens : List Token} (h : Scans cs tokens)
    (hblanks : ∀ c ∈ blanks, isSpace c) : Scans (blanks ++ cs) tokens := by
  have hdrop : (blanks ++ cs).dropWhile isSpace = cs.dropWhile isSpace :=
    List.dropWhile_append_of_pos hblanks
  cases h with
  | nil h => exact .nil (hdrop.trans h)
  | cons hfront htoken hlt h => exact .cons (hdrop.trans hfront) htoken hlt h

/-! ### Pieces of a text -/

/-- Whether a number may run on with a character. -/
def isNumberChar (c : Char) : Bool := c.isDigit || c == '.' || c == 'e' || c == 'E'

/-- A text that no number in front of it runs on into. -/
def Stops (rest : List Char) : Prop := ∀ c ∈ rest.head?, ¬ isNumberChar c

theorem stops_nil : Stops [] := by
  intro c hc
  cases hc

theorem stops_cons {c : Char} (h : isNumberChar c = false) (rest : List Char) :
    Stops (c :: rest) := by
  intro d hd
  obtain rfl : c = d := Option.some.inj hd
  simp [h]

/-- A piece of a text is cut into tokens, whatever follows it. -/
def Lexes (cs : List Char) (tokens : List Token) : Prop :=
  ∀ rest more, Stops rest → Scans rest more → Scans (cs ++ rest) (tokens ++ more)

theorem lexes_token {c : Char} {cs : List Char} {token : Token} (hc : isSpace c = false)
    (h : ∀ rest, Stops rest → scanToken? (c :: cs ++ rest) = some (token, rest)) :
    Lexes (c :: cs) [token] := by
  intro rest more hrest hscans
  refine .cons ?_ (h rest hrest) ?_ hscans
  · exact List.dropWhile_cons_of_neg (by simp [hc])
  · rw [List.length_append, List.length_cons]
    omega

theorem lexes_nil : Lexes [] [] := fun _ _ _ h => h

/-- A mark needs nothing of what follows it, and may stand in front of a number. -/
theorem Lexes.mark {c : Char} {cs : List Char} {token : Token} {tokens : List Token}
    (h : Lexes cs tokens) (hc : isSpace c = false)
    (htoken : ∀ rest, scanToken? (c :: rest) = some (token, rest)) :
    Lexes (c :: cs) (token :: tokens) := by
  intro rest more hrest hscans
  refine .cons ?_ (htoken (cs ++ rest)) (Nat.lt_succ_self _) (h rest more hrest hscans)
  exact List.dropWhile_cons_of_neg (by simp [hc])

theorem Lexes.blank {cs blanks : List Char} {tokens : List Token} (h : Lexes cs tokens)
    (hblanks : ∀ c ∈ blanks, isSpace c) : Lexes (blanks ++ cs) tokens := by
  intro rest more hrest hscans
  rw [List.append_assoc]
  exact (h rest more hrest hscans).blank hblanks

theorem Lexes.append {cs cs' : List Char} {tokens tokens' : List Token} (h : Lexes cs tokens)
    (h' : Lexes cs' tokens') (hstops : ∀ rest, Stops (cs' ++ rest)) :
    Lexes (cs ++ cs') (tokens ++ tokens') := by
  intro rest more hrest hscans
  rw [List.append_assoc, List.append_assoc]
  exact h _ _ (hstops rest) (h' rest more hrest hscans)

/-! ### Strings -/

/-- What a character is scanned as that was written inside quotes. -/
def quotedPiece (c : Char) : Piece :=
  if c.toNat < 0x20 ∧ c ∉ ['\x08', '\t', '\n', '\x0c', '\r'] then .unit c.toNat else .char c

theorem hexUnit?_hexDigit {n : Nat} (h : n < 0x20) :
    hexUnit? '0' '0' (hexDigit (n / 16)) (hexDigit (n % 16)) = some n := by
  revert n
  decide

theorem scanPieces_quoteChar (done : List Piece) (c : Char) (rest : List Char) :
    scanPieces done (quoteChar c ++ rest) = scanPieces (quotedPiece c :: done) rest := by
  unfold quoteChar
  split_ifs with hquote hback hb ht hn hf hr hcontrol
  · subst hquote; rfl
  · subst hback; rfl
  · subst hb; rfl
  · subst ht; rfl
  · subst hn; rfl
  · subst hf; rfl
  · subst hr; rfl
  · have hpiece : quotedPiece c = .unit c.toNat := by simp [quotedPiece, *]
    simp only [List.cons_append, List.nil_append]
    rw [scanPieces, hexUnit?_hexDigit hcontrol, hpiece]
    rfl
  · have hpiece : quotedPiece c = .char c := by simp [quotedPiece, *]
    rw [hpiece, List.singleton_append, scanPieces, if_neg hcontrol]
    · exact hquote
    · exact fun _ _ _ _ _ h => absurd h hback
    · exact fun _ _ h => absurd h hback

theorem scanPieces_quoted (s rest : List Char) : ∀ done : List Piece,
    scanPieces done (s.flatMap quoteChar ++ '"' :: rest) =
      some (done.reverse ++ s.map quotedPiece, rest) := by
  induction s with
  | nil =>
    intro done
    rw [List.flatMap_nil, List.nil_append, scanPieces, List.map_nil, List.append_nil]
  | cons c s ih =>
    intro done
    rw [List.flatMap_cons, List.append_assoc, scanPieces_quoteChar, ih, List.reverse_cons,
      List.append_assoc]
    rfl

theorem spell_unit {n : Nat} (h : n < 0x20) (pieces : List Piece) :
    spell (.unit n :: pieces) = (spell pieces).map (Char.ofNat n :: ·) := by
  have hhigh : isHighSurrogate n = false := by
    rw [isHighSurrogate, Bool.and_eq_false_iff]
    exact Or.inl (decide_eq_false (by omega))
  have hlow : isLowSurrogate n = false := by
    rw [isLowSurrogate, Bool.and_eq_false_iff]
    exact Or.inl (decide_eq_false (by omega))
  cases pieces with
  | nil => simp [spell, hhigh, hlow]
  | cons piece pieces => cases piece <;> simp [spell, hhigh, hlow]

theorem spell_quoted (s : List Char) : spell (s.map quotedPiece) = some s := by
  induction s with
  | nil => rfl
  | cons c s ih =>
    rw [List.map_cons, quotedPiece]
    split
    · next hcontrol =>
      rw [spell_unit hcontrol.1, ih, Char.ofNat_toNat]
      rfl
    · rw [spell, ih]
      rfl

theorem lexes_quote (s : String) : Lexes (quote (some s)).toList [.str (some s)] := by
  rw [quote, String.toList_ofList, List.cons_append]
  refine lexes_token (by decide) fun rest _ => ?_
  have hscan : scanString (s.toList.flatMap quoteChar ++ '"' :: rest) = some (some s, rest) := by
    rw [scanString, scanPieces_quoted]
    change some ((spell (s.toList.map quotedPiece)).map String.ofList, rest) = _
    rw [spell_quoted, Option.map_some, String.ofList_toList]
  rw [List.cons_append, List.append_assoc, List.singleton_append, scanToken?, hscan]
  rfl

/-! ### Numbers -/

/-- A spelling that is a number as a whole. -/
def IsNumber (s : String) : Prop := scanNumber s.toList = some (s, [])

section

variable {cs rest taken left : List Char}

theorem digits_append (hrest : Stops rest) (cs : List Char) :
    digits (cs ++ rest) = ((digits cs).1, (digits cs).2 ++ rest) := by
  induction cs with
  | nil =>
    cases rest with
    | nil => rfl
    | cons c rest =>
      have hdigit : c.isDigit = false := by
        have hc := hrest c rfl
        simp only [isNumberChar, Bool.or_eq_true, not_or, Bool.not_eq_true] at hc
        exact hc.1.1.1
      simp [digits, hdigit]
  | cons c cs ih =>
    rw [digits, digits] at ih
    obtain ⟨htake, hdrop⟩ := Prod.mk.inj ih
    by_cases hc : c.isDigit
    · rw [List.cons_append, digits, digits, List.takeWhile_cons_of_pos hc,
        List.dropWhile_cons_of_pos hc, List.takeWhile_cons_of_pos hc, List.dropWhile_cons_of_pos hc,
        htake, hdrop]
    · rw [List.cons_append, digits, digits, List.takeWhile_cons_of_neg hc,
        List.dropWhile_cons_of_neg hc, List.takeWhile_cons_of_neg hc, List.dropWhile_cons_of_neg hc,
        List.cons_append]

/-- Digits of which there has to be one. -/
theorem someDigits_append {f : List Char → List Char} (hrest : Stops rest)
    (h : (match digits cs with
      | ([], _) => none
      | (ds, rest) => some (f ds, rest)) = some (taken, left)) :
    (match digits (cs ++ rest) with
      | ([], _) => none
      | (ds, rest) => some (f ds, rest)) = some (taken, left ++ rest) := by
  rw [digits_append hrest]
  generalize digits cs = split at h ⊢
  obtain ⟨_ | ⟨d, ds⟩, tail⟩ := split
  · cases h
  · cases h
    rfl

theorem scanWhole_append (hrest : Stops rest) (h : scanWhole cs = some (taken, left)) :
    scanWhole (cs ++ rest) = some (taken, left ++ rest) := by
  cases cs with
  | nil => cases h
  | cons c cs =>
    by_cases hzero : c = '0'
    · subst hzero
      cases h
      rfl
    · have hne : ∀ tail, c :: cs = '0' :: tail → False := fun _ h => hzero (List.cons.inj h).1
      have hne' : ∀ tail, c :: cs ++ rest = '0' :: tail → False :=
        fun _ h => hzero (List.cons.inj h).1
      rw [scanWhole.eq_2 _ hne] at h
      rw [scanWhole.eq_2 _ hne', digits_append hrest]
      generalize digits (c :: cs) = split at h ⊢
      obtain ⟨_ | ⟨d, ds⟩, tail⟩ := split
      · cases h
      · cases h
        rfl

theorem scanFraction_append (hrest : Stops rest) (h : scanFraction cs = some (taken, left)) :
    scanFraction (cs ++ rest) = some (taken, left ++ rest) := by
  rw [scanFraction.eq_def] at h
  split at h
  · exact someDigits_append (f := ('.' :: ·)) hrest h
  · next hpoint =>
    cases h
    rw [scanFraction]
    intro tail htail
    cases cs with
    | nil =>
      rw [List.nil_append] at htail
      exact hrest '.' (by rw [htail]; rfl) (by decide)
    | cons c cs =>
      obtain ⟨rfl, -⟩ := List.cons.inj htail
      exact hpoint cs rfl

theorem scanExponent_of_not_mark {c : Char} (hmark : ¬(c = 'e' ∨ c = 'E')) (cs : List Char) :
    scanExponent (c :: cs) = some ([], c :: cs) := by
  rw [scanExponent.eq_def]
  simp [hmark]

theorem scanExponent_append (hrest : Stops rest) (h : scanExponent cs = some (taken, left)) :
    scanExponent (cs ++ rest) = some (taken, left ++ rest) := by
  cases cs with
  | nil =>
    cases h
    cases rest with
    | nil => rfl
    | cons c rest =>
      refine scanExponent_of_not_mark (fun hmark => hrest c rfl ?_) rest
      rcases hmark with rfl | rfl <;> decide
  | cons c cs =>
    by_cases hmark : c = 'e' ∨ c = 'E'
    · have hif : (decide (c = 'e') || decide (c = 'E')) = true := by simpa using hmark
      cases cs with
      | nil =>
        rw [scanExponent, if_pos hif] at h
        · cases h
        · exact fun _ h => by cases h
        · exact fun _ h => by cases h
      | cons d cs =>
        by_cases hsign : d = '+' ∨ d = '-'
        · have hsigned (tail : List Char) : scanExponent (c :: d :: tail) =
              match digits tail with
              | ([], _) => none
              | (ds, rest) => some ([c, d] ++ ds, rest) := by
            rcases hsign with rfl | rfl
            · exact (scanExponent.eq_1 c tail).trans (if_pos hif)
            · exact (scanExponent.eq_2 c tail).trans (if_pos hif)
          rw [hsigned] at h
          rw [List.cons_append, List.cons_append, hsigned]
          exact someDigits_append (f := ([c, d] ++ ·)) hrest h
        · have hunsigned (tail : List Char) : scanExponent (c :: d :: tail) =
              match digits (d :: tail) with
              | ([], _) => none
              | (ds, rest) => some ([c] ++ ds, rest) := by
            refine (scanExponent.eq_3 c (d :: tail) ?_ ?_).trans (if_pos hif)
            · exact fun _ h => hsign (Or.inl (List.cons.inj h).1)
            · exact fun _ h => hsign (Or.inr (List.cons.inj h).1)
          rw [hunsigned] at h
          rw [List.cons_append, List.cons_append, hunsigned]
          exact someDigits_append (f := ([c] ++ ·)) hrest h
    · rw [scanExponent_of_not_mark hmark] at h
      cases h
      exact scanExponent_of_not_mark hmark _

/-- A number behind its sign. -/
theorem scanUnsigned_append (cs sign : List Char) {s : String} (hrest : Stops rest)
    (h : (do
      let (whole, rest) ← scanWhole cs
      let (fraction, rest) ← scanFraction rest
      let (exponent, rest) ← scanExponent rest
      return (String.ofList (sign ++ whole ++ fraction ++ exponent), rest)) = some (s, left)) :
    (do
      let (whole, rest) ← scanWhole (cs ++ rest)
      let (fraction, rest) ← scanFraction rest
      let (exponent, rest) ← scanExponent rest
      return (String.ofList (sign ++ whole ++ fraction ++ exponent), rest)) =
        some (s, left ++ rest) := by
  obtain ⟨⟨whole, behindWhole⟩, hwhole, h⟩ := Option.bind_eq_some_iff.mp h
  obtain ⟨⟨fraction, behindFraction⟩, hfraction, h⟩ := Option.bind_eq_some_iff.mp h
  obtain ⟨⟨exponent, behind⟩, hexponent, h⟩ := Option.bind_eq_some_iff.mp h
  cases h
  simp [scanWhole_append hrest hwhole, scanFraction_append hrest hfraction,
    scanExponent_append hrest hexponent]

theorem scanNumber_append {s : String} (hrest : Stops rest) (h : scanNumber cs = some (s, left)) :
    scanNumber (cs ++ rest) = some (s, left ++ rest) := by
  cases cs with
  | nil => cases h
  | cons c cs =>
    by_cases hminus : c = '-'
    · subst hminus
      exact scanUnsigned_append cs ['-'] hrest h
    · have hunsigned (tail : List Char) : scanNumber (c :: tail) = (do
          let (whole, rest) ← scanWhole (c :: tail)
          let (fraction, rest) ← scanFraction rest
          let (exponent, rest) ← scanExponent rest
          return (String.ofList ([] ++ whole ++ fraction ++ exponent), rest)) := by
        rw [scanNumber]
        exact fun _ h => hminus (List.cons.inj h).1
      rw [hunsigned] at h
      rw [List.cons_append, hunsigned]
      exact scanUnsigned_append (c :: cs) [] hrest h

theorem head_of_scanNumber {c : Char} {s : String} (h : scanNumber (c :: cs) = some (s, left)) :
    c = '-' ∨ c.isDigit := by
  by_contra hc
  obtain ⟨hminus, hdigit⟩ := not_or.mp hc
  have hzero : c ≠ '0' := by
    rintro rfl
    exact hdigit (by decide)
  have hnone : scanWhole (c :: cs) = none := by
    rw [scanWhole, digits, List.takeWhile_cons_of_neg hdigit]
    exact fun _ h => hzero (List.cons.inj h).1
  rw [scanNumber, hnone] at h
  · cases h
  · exact fun _ h => hminus (List.cons.inj h).1

/-- What starts no number, neither with a sign nor with a digit. -/
theorem head_ne_of_scanNumber {c d : Char} {s : String}
    (h : scanNumber (c :: cs) = some (s, left)) (hd : d ≠ '-' ∧ d.isDigit = false) : c ≠ d := by
  rintro rfl
  rcases head_of_scanNumber h with hminus | hdigit
  · exact hd.1 hminus
  · rw [hd.2] at hdigit
    cases hdigit

theorem scanToken?_number {c : Char} {s : String} (h : scanNumber (c :: cs) = some (s, left)) :
    scanToken? (c :: cs) = some (.scalar (.num s), left) := by
  rw [scanToken?, h]
  · rfl
  -- a number starts like none of the other tokens
  all_goals
    exact fun _ hhead => head_ne_of_scanNumber h (by decide) (List.cons.inj hhead).1

end

theorem lexes_number {s : String} (h : IsNumber s) : Lexes s.toList [.scalar (.num s)] := by
  rw [IsNumber] at h
  cases hs : s.toList with
  | nil =>
    rw [hs] at h
    cases h
  | cons c cs =>
    rw [hs] at h
    have hspace : isSpace c = false := by
      have hne (d : Char) (hd : d ≠ '-' ∧ d.isDigit = false) : (c == d) = false :=
        beq_eq_false_iff_ne.mpr (head_ne_of_scanNumber h hd)
      simp only [isSpace, hne ' ' (by decide), hne '\t' (by decide), hne '\n' (by decide),
        hne '\r' (by decide), Bool.or_self]
    refine lexes_token hspace fun rest hrest => ?_
    exact scanToken?_number (scanNumber_append hrest h)

end SchemaGate.Json
