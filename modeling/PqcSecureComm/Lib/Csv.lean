import Mathlib

set_option autoImplicit false

/-! # Comma-separated values

A writer and a reader of tables, over any alphabet. The writer quotes a field if it must, doubles the
quotes in it and ends every record with `cr lf`. The reader is an automaton that is handed a file line by
line, each line with its own line feed and an end-of-line signal behind it, so that a quoted field may go
on over several lines. Between the two stands a text layer that turns every line ending into `lf`. Tables
without `cr` in their fields survive the way through all three (`read_write`). -/

namespace Csv

variable {α : Type} [DecidableEq α]

/-- The characters with a meaning. -/
structure Dialect (α : Type) where
  delimiter : α
  quote : α
  cr : α
  lf : α
  delimiter_ne_quote : delimiter ≠ quote
  delimiter_ne_cr : delimiter ≠ cr
  delimiter_ne_lf : delimiter ≠ lf
  quote_ne_cr : quote ≠ cr
  quote_ne_lf : quote ≠ lf
  cr_ne_lf : cr ≠ lf

/-! ## Writing -/

def Dialect.special (D : Dialect α) (c : α) : Bool :=
  c = D.delimiter || c = D.quote || c = D.cr || c = D.lf

/-- Double the quotes. -/
def escape (D : Dialect α) (field : List α) : List α :=
  field.flatMap fun c => if c = D.quote then [c, c] else [c]

/-- Quote a field only if a character of it has a meaning. -/
def writeField (D : Dialect α) (field : List α) : List α :=
  if field.any D.special then D.quote :: escape D field ++ [D.quote] else field

def joinFields (D : Dialect α) : List (List α) → List α
  | [] => []
  -- a record of one empty field would be a blank line
  | [[]] => [D.quote, D.quote]
  | field :: fields => writeField D field ++ fields.flatMap fun f => D.delimiter :: writeField D f

def writeRecord (D : Dialect α) (record : List (List α)) : List α :=
  joinFields D record ++ [D.cr, D.lf]

def write (D : Dialect α) (records : List (List (List α))) : List α :=
  records.flatMap (writeRecord D)

/-! ## The text layer -/

/-- Every `cr lf`, and every `cr` on its own, becomes `lf`. -/
def universalNewlines (D : Dialect α) : List α → List α
  | [] => []
  | [c] => if c = D.cr then [D.lf] else [c]
  | c :: c' :: cs =>
    if c = D.cr then
      if c' = D.lf then D.lf :: universalNewlines D cs
      else D.lf :: universalNewlines D (c' :: cs)
    else c :: universalNewlines D (c' :: cs)

/-- The lines of a text, each with the `lf` it ends with. -/
def splitLines (D : Dialect α) : List α → List (List α)
  | [] => []
  | c :: cs =>
    if c = D.lf then [c] :: splitLines D cs
    else
      match splitLines D cs with
      | [] => [[c]]
      | line :: lines => (c :: line) :: lines

/-! ## Reading -/

inductive Error
  | fieldTooLarge
  | newLineInUnquotedField
  deriving DecidableEq, Repr

inductive State
  | startRecord
  | startField
  | inField
  | inQuotedField
  | quoteInQuotedField
  | eatCrnl
  deriving DecidableEq, Repr

/-- The field and the record being read, and the records read so far. -/
structure Parser (α : Type) where
  state : State
  field : List α
  fields : List (List α)
  records : List (List (List α))
  deriving DecidableEq

namespace Parser

def start : Parser α := ⟨.startRecord, [], [], []⟩

/-- Append a character to the field and go to a state. -/
def add (limit : ℕ) (p : Parser α) (c : α) (state : State) : Except Error (Parser α) :=
  if limit ≤ p.field.length then .error .fieldTooLarge
  else .ok { p with field := p.field ++ [c], state := state }

/-- The field ends. -/
def save (p : Parser α) (state : State) : Parser α :=
  { p with field := [], fields := p.fields ++ [p.field], state := state }

/-- The record ends. -/
def emit (p : Parser α) : Parser α := ⟨.startRecord, [], [], p.records ++ [p.fields]⟩

/-- The first character of a field. -/
def openField (D : Dialect α) (limit : ℕ) (p : Parser α) (c : α) : Except Error (Parser α) :=
  if c = D.lf ∨ c = D.cr then .ok (p.save .eatCrnl)
  else if c = D.quote then .ok { p with state := .inQuotedField }
  else if c = D.delimiter then .ok (p.save .startField)
  else p.add limit c .inField

/-- A character of a line. -/
def char (D : Dialect α) (limit : ℕ) (p : Parser α) (c : α) : Except Error (Parser α) :=
  match p.state with
  | .startRecord =>
    if c = D.lf ∨ c = D.cr then .ok { p with state := .eatCrnl } else p.openField D limit c
  | .startField => p.openField D limit c
  | .inField =>
    if c = D.lf ∨ c = D.cr then .ok (p.save .eatCrnl)
    else if c = D.delimiter then .ok (p.save .startField)
    else p.add limit c .inField
  | .inQuotedField =>
    if c = D.quote then .ok { p with state := .quoteInQuotedField }
    else p.add limit c .inQuotedField
  | .quoteInQuotedField =>
    if c = D.quote then p.add limit c .inQuotedField
    else if c = D.delimiter then .ok (p.save .startField)
    else if c = D.lf ∨ c = D.cr then .ok (p.save .eatCrnl)
    else p.add limit c .inField
  | .eatCrnl => if c = D.lf ∨ c = D.cr then .ok p else .error .newLineInUnquotedField

/-- The end of a line; a quoted field goes on behind it. -/
def endOfLine (p : Parser α) : Parser α :=
  match p.state with
  | .startRecord => p.emit
  | .startField => (p.save .startRecord).emit
  | .inField => (p.save .startRecord).emit
  | .inQuotedField => p
  | .quoteInQuotedField => (p.save .startRecord).emit
  | .eatCrnl => p.emit

/-- A character, or the end of the line. -/
def feed (D : Dialect α) (limit : ℕ) (p : Parser α) : Option α → Except Error (Parser α)
  | some c => p.char D limit c
  | none => .ok p.endOfLine

def line (D : Dialect α) (limit : ℕ) (p : Parser α) (cs : List α) : Except Error (Parser α) :=
  (cs.map some ++ [none]).foldlM (feed D limit) p

/-- The records at the end of the file; an open quoted field ends there. -/
def finish (p : Parser α) : List (List (List α)) :=
  match p.state with
  | .inQuotedField => p.records ++ [p.fields ++ [p.field]]
  | _ => p.records

end Parser

/-- The records of a file. -/
def read (D : Dialect α) (limit : ℕ) (lines : List (List α)) :
    Except Error (List (List (List α))) :=
  Parser.finish <$> lines.foldlM (Parser.line D limit) Parser.start

/-! ## Line by line is signal by signal -/

section Signals

variable (D : Dialect α) (limit : ℕ)

/-- The characters of a text, with an end of line behind every `lf`. -/
def signals (text : List α) : List (Option α) :=
  text.flatMap fun c => if c = D.lf then [some c, none] else [some c]

/-- A text that ends with a line feed, handed over line by line, is its signals. -/
theorem flatMap_splitLines (text : List α) :
    (splitLines D (text ++ [D.lf])).flatMap (fun line => line.map some ++ [none]) =
      signals D (text ++ [D.lf]) := by
  induction text with
  | nil => simp [splitLines, signals]
  | cons c cs ih =>
      rw [List.cons_append, splitLines]
      unfold signals at ih ⊢
      rw [List.flatMap_cons, ← ih]
      by_cases hc : c = D.lf
      · rw [if_pos hc, if_pos hc, List.flatMap_cons]
        rfl
      · rw [if_neg hc, if_neg hc]
        cases hlines : splitLines D (cs ++ [D.lf]) with
        | nil =>
            rw [hlines] at ih
            exact absurd ih (by simp)
        | cons line lines => rfl

theorem foldlM_line (p : Parser α) (lines : List (List α)) :
    lines.foldlM (Parser.line D limit) p =
      (lines.flatMap fun line => line.map some ++ [none]).foldlM (Parser.feed D limit) p := by
  induction lines generalizing p with
  | nil => rfl
  | cons line lines ih =>
      rw [List.foldlM_cons, List.flatMap_cons, List.foldlM_append]
      exact congrArg _ (funext ih)

/-- Feed the signals of a text. -/
def text (p : Parser α) (cs : List α) : Except Error (Parser α) :=
  (signals D cs).foldlM (Parser.feed D limit) p

theorem text_append (p : Parser α) (cs cs' : List α) :
    text D limit p (cs ++ cs') = text D limit p cs >>= fun p => text D limit p cs' := by
  unfold text signals
  rw [List.flatMap_append, List.foldlM_append]

theorem text_cons_of_ne (p : Parser α) {c : α} (hc : c ≠ D.lf) (cs : List α) :
    text D limit p (c :: cs) = p.char D limit c >>= fun p => text D limit p cs := by
  unfold text signals
  rw [List.flatMap_cons, if_neg hc, List.singleton_append, List.foldlM_cons]
  rfl

theorem text_cons_lf (p : Parser α) (cs : List α) :
    text D limit p (D.lf :: cs) =
      p.char D limit D.lf >>= fun p => text D limit p.endOfLine cs := by
  unfold text signals
  rw [List.flatMap_cons, if_pos rfl, List.cons_append, List.singleton_append, List.foldlM_cons]
  rfl

end Signals

/-! ## Reading a field -/

section Fields

variable {D : Dialect α} {limit : ℕ} {fields : List (List α)} {records : List (List (List α))}

omit [DecidableEq α] in
theorem Parser.add_of_lt {p : Parser α} (h : p.field.length < limit) (c : α) (state : State) :
    p.add limit c state = .ok { p with field := p.field ++ [c], state := state } :=
  if_neg (not_le.2 h)

theorem Dialect.not_special {c : α} (h : D.special c = false) :
    c ≠ D.delimiter ∧ c ≠ D.quote ∧ c ≠ D.cr ∧ c ≠ D.lf := by
  simpa [Dialect.special, and_assoc] using h

/-- An unquoted field goes on until something special comes. -/
theorem text_inField {x : List α} (acc : List α) (hx : ∀ c ∈ x, D.special c = false)
    (hlimit : acc.length + x.length ≤ limit) :
    text D limit ⟨.inField, acc, fields, records⟩ x = .ok ⟨.inField, acc ++ x, fields, records⟩ := by
  induction x generalizing acc with
  | nil => rw [List.append_nil]; rfl
  | cons c x ih =>
      obtain ⟨hdelimiter, -, hcr, hlf⟩ := Dialect.not_special (hx c List.mem_cons_self)
      rw [List.length_cons] at hlimit
      rw [text_cons_of_ne D limit _ hlf]
      have hchar : Parser.char D limit ⟨.inField, acc, fields, records⟩ c =
          .ok ⟨.inField, acc ++ [c], fields, records⟩ := by
        simp only [Parser.char, hlf, hcr, hdelimiter, or_self, if_false]
        exact Parser.add_of_lt (by simp only; omega) c .inField
      rw [hchar]
      have hrest := ih (acc ++ [c]) (fun c' hc' => hx c' (List.mem_cons_of_mem c hc'))
        (by rw [List.length_append, List.length_singleton]; omega)
      rw [List.append_assoc] at hrest
      exact hrest

/-- Inside quotes everything is taken as it is, line ends included, and doubled quotes once. -/
theorem text_inQuotedField {x : List α} (acc : List α) (hlimit : acc.length + x.length ≤ limit) :
    text D limit ⟨.inQuotedField, acc, fields, records⟩ (escape D x) =
      .ok ⟨.inQuotedField, acc ++ x, fields, records⟩ := by
  induction x generalizing acc with
  | nil => rw [List.append_nil]; rfl
  | cons c x ih =>
      rw [List.length_cons] at hlimit
      have hrest := ih (acc ++ [c]) (by rw [List.length_append, List.length_singleton]; omega)
      rw [List.append_assoc] at hrest
      have hadd : Parser.add limit ⟨.inQuotedField, acc, fields, records⟩ c .inQuotedField =
          .ok ⟨.inQuotedField, acc ++ [c], fields, records⟩ :=
        Parser.add_of_lt (by simp only; omega) c .inQuotedField
      have hescape : escape D (c :: x) = (if c = D.quote then [c, c] else [c]) ++ escape D x :=
        List.flatMap_cons
      rw [hescape, text_append]
      by_cases hquote : c = D.quote
      · -- the first quote is taken back by the second
        subst hquote
        rw [if_pos rfl, text_cons_of_ne D limit _ D.quote_ne_lf]
        have hfirst : Parser.char D limit ⟨.inQuotedField, acc, fields, records⟩ D.quote =
            .ok ⟨.quoteInQuotedField, acc, fields, records⟩ := by
          simp [Parser.char]
        have hsecond : Parser.char D limit ⟨.quoteInQuotedField, acc, fields, records⟩ D.quote =
            .ok ⟨.inQuotedField, acc ++ [D.quote], fields, records⟩ := by
          simp only [Parser.char, if_true]
          exact hadd
        rw [hfirst]
        change (text D limit _ [D.quote] >>= _) = _
        rw [text_cons_of_ne D limit _ D.quote_ne_lf, hsecond]
        exact hrest
      · have hchar : Parser.char D limit ⟨.inQuotedField, acc, fields, records⟩ c =
            .ok ⟨.inQuotedField, acc ++ [c], fields, records⟩ := by
          simp only [Parser.char, if_neg hquote]
          exact hadd
        rw [if_neg hquote]
        by_cases hlf : c = D.lf
        · subst hlf
          rw [text_cons_lf, hchar]
          exact hrest
        · rw [text_cons_of_ne D limit _ hlf, hchar]
          exact hrest

/-- The field `x` was read and has not ended yet. -/
structure Parser.Pending (p : Parser α) (fields : List (List α)) (records : List (List (List α)))
    (x : List α) : Prop where
  fields : p.fields = fields
  records : p.records = records
  field : p.field = x
  state : p.state = .inField ∨ p.state = .quoteInQuotedField ∨
    x = [] ∧ (p.state = .startField ∨ p.state = .startRecord)

/-- Reading a field as it was written. -/
theorem text_writeField (fields : List (List α)) (records : List (List (List α))) {state : State}
    (hstate : state = .startField ∨ state = .startRecord)
    {x : List α} (hlimit : x.length ≤ limit) :
    ∃ p, text D limit ⟨state, [], fields, records⟩ (writeField D x) = .ok p ∧
      p.Pending fields records x ∧ (p.state = .startRecord → x = [] ∧ state = .startRecord) := by
  have hopen : ∀ c, c ≠ D.lf → c ≠ D.cr → Parser.char D limit ⟨state, [], fields, records⟩ c =
      Parser.openField D limit ⟨state, [], fields, records⟩ c := by
    intro c hlf hcr
    rcases hstate with rfl | rfl
    · rfl
    · simp [Parser.char, hlf, hcr]
  unfold writeField
  by_cases hany : x.any D.special = true
  · rw [if_pos hany, List.cons_append, text_cons_of_ne D limit _ D.quote_ne_lf,
      hopen _ D.quote_ne_lf D.quote_ne_cr]
    have hquote : Parser.openField D limit ⟨state, [], fields, records⟩ D.quote =
        .ok ⟨.inQuotedField, [], fields, records⟩ := by
      simp [Parser.openField, D.quote_ne_lf, D.quote_ne_cr]
    rw [hquote]
    change ∃ p, text D limit _ (escape D x ++ [D.quote]) = .ok p ∧ _
    rw [text_append, text_inQuotedField [] (by simpa using hlimit)]
    refine ⟨⟨.quoteInQuotedField, x, fields, records⟩, ?_, ⟨rfl, rfl, rfl, Or.inr (Or.inl rfl)⟩, ?_⟩
    · change text D limit ⟨.inQuotedField, [] ++ x, fields, records⟩ [D.quote] = _
      rw [text_cons_of_ne D limit _ D.quote_ne_lf]
      simp [Parser.char, text, signals]
    · intro h
      exact absurd h (by simp)
  · have hx : ∀ c ∈ x, D.special c = false := by
      simpa using hany
    rw [if_neg hany]
    cases x with
    | nil => exact ⟨⟨state, [], fields, records⟩, rfl, ⟨rfl, rfl, rfl, Or.inr (Or.inr ⟨rfl, hstate⟩)⟩,
        fun h => ⟨rfl, h⟩⟩
    | cons c x =>
        obtain ⟨hdelimiter, hquote, hcr, hlf⟩ := Dialect.not_special (hx c List.mem_cons_self)
        rw [List.length_cons] at hlimit
        rw [text_cons_of_ne D limit _ hlf, hopen c hlf hcr]
        have hfirst : Parser.openField D limit ⟨state, [], fields, records⟩ c =
            .ok ⟨.inField, [c], fields, records⟩ := by
          simp only [Parser.openField, hlf, hcr, hquote, hdelimiter, or_self, if_false]
          exact Parser.add_of_lt (by simp only [List.length_nil]; omega) c .inField
        rw [hfirst]
        refine ⟨⟨.inField, c :: x, fields, records⟩, ?_, ⟨rfl, rfl, rfl, Or.inl rfl⟩, ?_⟩
        · exact text_inField [c] (fun c' hc' => hx c' (List.mem_cons_of_mem c hc'))
            (by rw [List.length_singleton]; omega)
        · intro h
          exact absurd h (by simp)

/-- A delimiter ends the field. -/
theorem Parser.Pending.delimit {p : Parser α} {x : List α} (h : p.Pending fields records x) :
    p.char D limit D.delimiter = .ok ⟨.startField, [], fields ++ [x], records⟩ := by
  obtain ⟨state, field, fields', records'⟩ := p
  obtain ⟨rfl, rfl, rfl, hstate⟩ := h
  rcases hstate with rfl | rfl | ⟨hx, rfl | rfl⟩
  · simp [Parser.char, D.delimiter_ne_lf, D.delimiter_ne_cr, Parser.save]
  · simp [Parser.char, D.delimiter_ne_quote, Parser.save]
  · simp [Parser.char, Parser.openField, D.delimiter_ne_lf, D.delimiter_ne_cr, D.delimiter_ne_quote,
      Parser.save]
  · simp [Parser.char, Parser.openField, D.delimiter_ne_lf, D.delimiter_ne_cr, D.delimiter_ne_quote,
      Parser.save]

/-- A line feed ends the record. -/
theorem Parser.Pending.terminate {p : Parser α} {x : List α} (h : p.Pending fields records x)
    (hstate : p.state ≠ .startRecord) :
    text D limit p [D.lf] = .ok ⟨.startRecord, [], [], records ++ [fields ++ [x]]⟩ := by
  rw [text_cons_lf]
  obtain ⟨state, field, fields', records'⟩ := p
  obtain ⟨rfl, rfl, rfl, hpending⟩ := h
  have hquote : D.lf ≠ D.quote := D.quote_ne_lf.symm
  have hdelimiter : D.lf ≠ D.delimiter := D.delimiter_ne_lf.symm
  rcases hpending with rfl | rfl | ⟨hx, rfl | rfl⟩
  · simp [Parser.char, Parser.save, Parser.endOfLine, Parser.emit, text, signals]
  · simp [Parser.char, hquote, hdelimiter, Parser.save, Parser.endOfLine, Parser.emit, text, signals]
  · simp [Parser.char, Parser.openField, Parser.save, Parser.endOfLine, Parser.emit, text, signals]
  · exact absurd rfl hstate

/-- Reading further fields. -/
theorem text_moreFields {p : Parser α} {x : List α} (xs : List (List α))
    (h : p.Pending fields records x) (hlimit : ∀ y ∈ xs, y.length ≤ limit) :
    ∃ p' front last, text D limit p (xs.flatMap fun y => D.delimiter :: writeField D y) = .ok p' ∧
      x :: xs = front ++ [last] ∧ p'.Pending (fields ++ front) records last ∧
      (p'.state = .startRecord → xs = [] ∧ p' = p) := by
  induction xs generalizing p x fields with
  | nil => exact ⟨p, [], x, rfl, rfl, by rwa [List.append_nil], fun _ => ⟨rfl, rfl⟩⟩
  | cons y ys ih =>
      obtain ⟨p₁, hread, hpending, hstart⟩ := text_writeField (D := D) (fields ++ [x]) records
        (Or.inl rfl) (hlimit y List.mem_cons_self)
      obtain ⟨p₂, front, last, hrest, hsplit, hlast, hstate⟩ :=
        ih hpending fun z hz => hlimit z (List.mem_cons_of_mem y hz)
      refine ⟨p₂, x :: front, last, ?_, ?_, ?_, ?_⟩
      · rw [List.flatMap_cons, List.cons_append, text_cons_of_ne D limit _ D.delimiter_ne_lf, h.delimit]
        change text D limit _ (writeField D y ++ _) = _
        rw [text_append, hread]
        exact hrest
      · rw [hsplit, List.cons_append]
      · rwa [List.append_assoc, List.singleton_append] at hlast
      · intro h
        obtain ⟨-, rfl⟩ := hstate h
        exact absurd (hstart h).2 (by simp)

/-- Reading a record as it was written. -/
theorem text_joinFields {record : List (List α)} (hne : record ≠ [])
    (hlimit : ∀ x ∈ record, x.length ≤ limit) :
    text D limit ⟨.startRecord, [], [], records⟩ (joinFields D record ++ [D.lf]) =
      .ok ⟨.startRecord, [], [], records ++ [record]⟩ := by
  unfold joinFields
  split
  · exact absurd rfl hne
  · -- the two quotes leave an empty field behind
    have hpending : Parser.Pending ⟨.quoteInQuotedField, [], [], records⟩ [] records
        ([] : List α) := ⟨rfl, rfl, rfl, Or.inr (Or.inl rfl)⟩
    have hquotes : text D limit ⟨.startRecord, [], [], records⟩ [D.quote, D.quote] =
        .ok ⟨.quoteInQuotedField, [], [], records⟩ := by
      have hopen : Parser.char D limit ⟨.startRecord, [], [], records⟩ D.quote =
          .ok ⟨.inQuotedField, [], [], records⟩ := by
        simp [Parser.char, Parser.openField, D.quote_ne_lf, D.quote_ne_cr]
      rw [text_cons_of_ne D limit _ D.quote_ne_lf, hopen]
      change text D limit _ [D.quote] = _
      rw [text_cons_of_ne D limit _ D.quote_ne_lf]
      simp [Parser.char, text, signals]
    rw [text_append, hquotes]
    exact hpending.terminate (by simp)
  · next x xs hsingle =>
      obtain ⟨p, hread, hpending, hstart⟩ := text_writeField (D := D) [] records (Or.inr rfl)
        (hlimit x List.mem_cons_self)
      obtain ⟨p', front, last, hrest, hsplit, hlast, hstate⟩ :=
        text_moreFields (D := D) xs hpending fun y hy => hlimit y (List.mem_cons_of_mem x hy)
      have hopen : p'.state ≠ .startRecord := by
        intro h
        obtain ⟨rfl, rfl⟩ := hstate h
        obtain ⟨rfl, -⟩ := hstart h
        exact hsingle rfl rfl
      rw [List.append_assoc, text_append, hread]
      change text D limit p (_ ++ [D.lf]) = _
      rw [text_append, hrest]
      change text D limit p' [D.lf] = _
      rw [hlast.terminate hopen, List.nil_append, ← hsplit]

end Fields

/-! ## Round trip -/

section RoundTrip

variable {D : Dialect α} {limit : ℕ}

theorem universalNewlines_cons_of_ne {c : α} (hc : c ≠ D.cr) (cs : List α) :
    universalNewlines D (c :: cs) = c :: universalNewlines D cs := by
  cases cs with
  | nil => simp [universalNewlines, hc]
  | cons c' cs => simp [universalNewlines, hc]

/-- A line without `cr` keeps its characters, and gets the line ending of the text layer. -/
theorem universalNewlines_line {x : List α} (hx : D.cr ∉ x) (rest : List α) :
    universalNewlines D (x ++ D.cr :: D.lf :: rest) = x ++ D.lf :: universalNewlines D rest := by
  induction x with
  | nil => simp [universalNewlines]
  | cons c x ih =>
      obtain ⟨hc, hx⟩ := not_or.1 (fun h => hx (List.mem_cons.2 h))
      rw [List.cons_append, universalNewlines_cons_of_ne (fun h => hc h.symm), ih hx, List.cons_append]

theorem mem_writeField {x : List α} {c : α} (h : c ∈ writeField D x) : c = D.quote ∨ c ∈ x := by
  unfold writeField escape at h
  split at h
  · rw [List.cons_append, List.mem_cons, List.mem_append, List.mem_flatMap, List.mem_singleton] at h
    rcases h with hquote | ⟨c', hc', hmem⟩ | hquote
    · exact Or.inl hquote
    · split at hmem
      · rcases List.mem_cons.1 hmem with rfl | hmem
        · exact Or.inr hc'
        · exact Or.inr (List.mem_singleton.1 hmem ▸ hc')
      · exact Or.inr (List.mem_singleton.1 hmem ▸ hc')
    · exact Or.inl hquote
  · exact Or.inr h

/-- The writer adds no `cr` in front of the end of the record. -/
theorem cr_notMem_joinFields {record : List (List α)} (h : ∀ x ∈ record, D.cr ∉ x) :
    D.cr ∉ joinFields D record := by
  have hfield : ∀ x ∈ record, D.cr ∉ writeField D x := by
    intro x hx hmem
    rcases mem_writeField hmem with hquote | hcr
    · exact D.quote_ne_cr hquote.symm
    · exact h x hx hcr
  unfold joinFields
  split
  · exact List.not_mem_nil
  · simp [D.quote_ne_cr.symm]
  · next x xs hsingle =>
      rw [List.mem_append, List.mem_flatMap, not_or]
      refine ⟨hfield x List.mem_cons_self, ?_⟩
      rintro ⟨y, hy, hmem⟩
      rcases List.mem_cons.1 hmem with hdelimiter | hmem
      · exact D.delimiter_ne_cr hdelimiter.symm
      · exact hfield y (List.mem_cons_of_mem x hy) hmem

/-- What the reader gets to see of a written table. -/
theorem universalNewlines_write {records : List (List (List α))}
    (h : ∀ record ∈ records, ∀ x ∈ record, D.cr ∉ x) :
    universalNewlines D (write D records) =
      records.flatMap fun record => joinFields D record ++ [D.lf] := by
  induction records with
  | nil => rfl
  | cons record records ih =>
      have hrest := ih fun record' hrecord' => h record' (List.mem_cons_of_mem record hrecord')
      have hsplit : write D (record :: records) =
          joinFields D record ++ D.cr :: D.lf :: write D records := by
        unfold write writeRecord
        rw [List.flatMap_cons, List.append_assoc]
        rfl
      rw [hsplit, universalNewlines_line (cr_notMem_joinFields (h record List.mem_cons_self)), hrest,
        List.flatMap_cons, List.append_assoc]
      rfl

theorem text_records {records : List (List (List α))} (before : List (List (List α)))
    (h : ∀ record ∈ records, record ≠ [] ∧ ∀ x ∈ record, x.length ≤ limit) :
    text D limit ⟨.startRecord, [], [], before⟩
        (records.flatMap fun record => joinFields D record ++ [D.lf]) =
      .ok ⟨.startRecord, [], [], before ++ records⟩ := by
  induction records generalizing before with
  | nil => rw [List.append_nil]; rfl
  | cons record records ih =>
      obtain ⟨hne, hlimit⟩ := h record List.mem_cons_self
      rw [List.flatMap_cons, text_append, text_joinFields hne hlimit]
      have hrest := ih (before ++ [record]) fun record' hrecord' =>
        h record' (List.mem_cons_of_mem record hrecord')
      rw [List.append_assoc] at hrest
      exact hrest

/-- **Round trip.** A table whose records are not empty and whose fields contain no `cr` and are not
    too long is read back as it was written. -/
theorem read_write {records : List (List (List α))}
    (hne : ∀ record ∈ records, record ≠ [])
    (hfields : ∀ record ∈ records, ∀ x ∈ record, D.cr ∉ x ∧ x.length ≤ limit) :
    read D limit (splitLines D (universalNewlines D (write D records))) = .ok records := by
  rw [universalNewlines_write fun record hrecord x hx => (hfields record hrecord x hx).1]
  have hlimit : ∀ record ∈ records, record ≠ [] ∧ ∀ x ∈ record, x.length ≤ limit :=
    fun record hrecord => ⟨hne record hrecord, fun x hx => (hfields record hrecord x hx).2⟩
  have hread := text_records (D := D) [] hlimit
  rw [List.nil_append] at hread
  unfold read
  rw [foldlM_line]
  rcases List.eq_nil_or_concat records with rfl | ⟨records', record, rfl⟩
  · rfl
  · -- the text ends with a line feed
    rw [List.concat_eq_append, List.flatMap_append, List.flatMap_singleton, ← List.append_assoc] at hread ⊢
    rw [flatMap_splitLines]
    change Parser.finish <$> text D limit Parser.start _ = _
    unfold Parser.start
    rw [hread]
    rfl

end RoundTrip

end Csv
