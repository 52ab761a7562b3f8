import Mathlib.Data.List.Basic
import Mathlib.Tactic

/-!
# JSON values and their text

`render` writes a JSON value without spaces, as `JSON.stringify` does.  How
strings and numbers are written is a parameter; `quote` writes strings of
characters.  When distinct strings and numbers have distinct tokens, distinct
values have distinct texts: a value followed by a delimiter can be read back
in only one way.
-/

namespace JsonText

inductive Value (σ ν : Type*) where
  | null
  | bool (b : Bool)
  | number (n : ν)
  | string (s : σ)
  | array (items : List (Value σ ν))
  | object (fields : List (σ × Value σ ν))

def quoteMark : Char := '\x22'

def backslash : Char := '\x5c'

def hexDigits : List Char :=
  ['0', '1', '2', '3', '4', '5', '6', '7', '8', '9', 'a', 'b', 'c', 'd',
    'e', 'f']

def hexDigit (n : ℕ) : Char := hexDigits.getD n '0'

/-- One character of a string literal. -/
def escapeChar (c : Char) : List Char :=
  if c = quoteMark then [backslash, quoteMark]
  else if c = backslash then [backslash, backslash]
  else if c = '\x08' then [backslash, 'b']
  else if c = '\x0c' then [backslash, 'f']
  else if c = '\n' then [backslash, 'n']
  else if c = '\r' then [backslash, 'r']
  else if c = '\t' then [backslash, 't']
  else if c.toNat < 32 then
    [backslash, 'u', '0', '0', hexDigit (c.toNat / 16),
      hexDigit (c.toNat % 16)]
  else [c]

def escape (text : List Char) : List Char :=
  text.flatMap escapeChar

def quote (s : String) : List Char :=
  quoteMark :: escape s.toList ++ [quoteMark]

section

variable {σ ν : Type*} (string : σ → List Char) (number : ν → List Char)

mutual

def render : Value σ ν → List Char
  | .null => ['n', 'u', 'l', 'l']
  | .bool true => ['t', 'r', 'u', 'e']
  | .bool false => ['f', 'a', 'l', 's', 'e']
  | .number n => number n
  | .string s => string s
  | .array items => '[' :: renderItems items ++ [']']
  | .object fields => '\x7b' :: renderFields fields ++ ['\x7d']

def renderItems : List (Value σ ν) → List Char
  | [] => []
  | item :: rest => render item ++ renderMoreItems rest

def renderMoreItems : List (Value σ ν) → List Char
  | [] => []
  | item :: rest => ',' :: render item ++ renderMoreItems rest

def renderFields : List (σ × Value σ ν) → List Char
  | [] => []
  | (name, value) :: rest =>
      string name ++ ':' :: render value ++ renderMoreFields rest

def renderMoreFields : List (σ × Value σ ν) → List Char
  | [] => []
  | (name, value) :: rest =>
      ',' :: string name ++ ':' :: render value ++ renderMoreFields rest

end

end

/-! ## Reading a string literal back -/

def hexValue (c : Char) : ℕ := hexDigits.idxOf c

def shortEscape (c : Char) : Option Char :=
  if c = quoteMark then some quoteMark
  else if c = backslash then some backslash
  else if c = 'b' then some '\x08'
  else if c = 'f' then some '\x0c'
  else if c = 'n' then some '\n'
  else if c = 'r' then some '\r'
  else if c = 't' then some '\t'
  else none

def unescapeChar : List Char → Option (Char × List Char)
  | [] => none
  | c :: rest =>
      if c = backslash then
        match rest with
        | 'u' :: '0' :: '0' :: high :: low :: tail =>
            some (Char.ofNat (16 * hexValue high + hexValue low), tail)
        | short :: tail => (shortEscape short).map (fun d => (d, tail))
        | [] => none
      else some (c, rest)

private theorem unescapeChar_control {n : ℕ} (hn : n < 32)
    (rest : List Char) :
    unescapeChar
        ([backslash, 'u', '0', '0', hexDigit (n / 16), hexDigit (n % 16)] ++
          rest) =
      some (Char.ofNat n, rest) := by
  interval_cases n <;> rfl

theorem unescapeChar_escapeChar (c : Char) (rest : List Char) :
    unescapeChar (escapeChar c ++ rest) = some (c, rest) := by
  unfold escapeChar
  split_ifs with hquote hback h8 hc hn hr ht hlow
  · subst hquote; rfl
  · subst hback; rfl
  · subst h8; rfl
  · subst hc; rfl
  · subst hn; rfl
  · subst hr; rfl
  · subst ht; rfl
  · have hread := unescapeChar_control hlow rest
    rwa [Char.ofNat_toNat] at hread
  · simp [unescapeChar, hback]

theorem escapeChar_append_injective {c d : Char} {rest rest' : List Char}
    (h : escapeChar c ++ rest = escapeChar d ++ rest') :
    c = d ∧ rest = rest' := by
  have hread := congrArg unescapeChar h
  rw [unescapeChar_escapeChar, unescapeChar_escapeChar] at hread
  simpa using hread

theorem escapeChar_ne_quoteMark (c : Char) (rest tail : List Char) :
    escapeChar c ++ rest ≠ quoteMark :: tail := by
  unfold escapeChar
  split_ifs with hquote <;> simp_all [backslash, quoteMark]

theorem escape_append_injective {text text' rest rest' : List Char}
    (h : escape text ++ quoteMark :: rest =
      escape text' ++ quoteMark :: rest') :
    text = text' ∧ rest = rest' := by
  induction text generalizing text' with
  | nil =>
      cases text' with
      | nil => simpa [escape] using h
      | cons d text' =>
          simp only [escape, List.flatMap_nil, List.nil_append,
            List.flatMap_cons, List.append_assoc] at h
          exact absurd h.symm (escapeChar_ne_quoteMark d _ _)
  | cons c text ih =>
      cases text' with
      | nil =>
          simp only [escape, List.flatMap_nil, List.nil_append,
            List.flatMap_cons, List.append_assoc] at h
          exact absurd h (escapeChar_ne_quoteMark c _ _)
      | cons d text' =>
          simp only [escape, List.flatMap_cons, List.append_assoc] at h
          obtain ⟨hchar, htail⟩ := escapeChar_append_injective h
          obtain ⟨htext, hrest⟩ := ih htail
          exact ⟨by rw [hchar, htext], hrest⟩

theorem quote_append_injective {s s' : String} {rest rest' : List Char}
    (h : quote s ++ rest = quote s' ++ rest') : s = s' ∧ rest = rest' := by
  simp only [quote, List.cons_append, List.append_assoc, List.cons.injEq,
    true_and] at h
  obtain ⟨htext, hrest⟩ := escape_append_injective h
  exact ⟨String.toList_inj.mp htext, hrest⟩

/-! ## Distinct values have distinct texts -/

inductive Kind where
  | null | true | false | number | string | array | object | other
  deriving DecidableEq

def isNumberChar (c : Char) : Bool :=
  c.isDigit || c = '-' || c = '+' || c = '.' || c = 'e'

/-- The kind of a value that starts with this character. -/
def charKind (c : Char) : Kind :=
  if isNumberChar c then .number
  else if c = 'n' then .null
  else if c = 't' then .true
  else if c = 'f' then .false
  else if c = quoteMark then .string
  else if c = '[' then .array
  else if c = '\x7b' then .object
  else .other

section

variable {σ ν : Type*}

def Value.kind : Value σ ν → Kind
  | .null => .null
  | .bool true => .true
  | .bool false => .false
  | .number _ => .number
  | .string _ => .string
  | .array _ => .array
  | .object _ => .object

/-- Strings are written as distinct tokens that open with a quotation mark
and end where they are closed. -/
structure StringTokens (string : σ → List Char) : Prop where
  opens : ∀ s, ∃ tail, string s = quoteMark :: tail
  injective : ∀ {s s' : σ} {rest rest' : List Char},
    string s ++ rest = string s' ++ rest' → s = s' ∧ rest = rest'

theorem quote_tokens : StringTokens quote where
  opens _ := ⟨_, rfl⟩
  injective := quote_append_injective

/-- Numbers are written as distinct non-empty tokens of number characters. -/
structure NumberTokens (number : ν → List Char) : Prop where
  injective : Function.Injective number
  nonempty : ∀ n, number n ≠ []
  chars : ∀ n, ∀ c ∈ number n, isNumberChar c = true

/-- What may follow a value: the end of the text or a delimiter. -/
def Delimited (rest : List Char) : Prop :=
  ∀ c ∈ rest.head?, c = ',' ∨ c = ']' ∨ c = '\x7d'

theorem delimited_nil : Delimited [] := by
  intro c hc
  simp at hc

theorem delimited_comma (rest : List Char) : Delimited (',' :: rest) := by
  intro c hc
  simp only [List.head?_cons, Option.mem_def, Option.some.injEq] at hc
  exact Or.inl hc.symm

theorem delimited_bracket (rest : List Char) :
    Delimited (']' :: rest) := by
  intro c hc
  simp only [List.head?_cons, Option.mem_def, Option.some.injEq] at hc
  exact Or.inr (Or.inl hc.symm)

theorem delimited_brace (rest : List Char) :
    Delimited ('\x7d' :: rest) := by
  intro c hc
  simp only [List.head?_cons, Option.mem_def, Option.some.injEq] at hc
  exact Or.inr (Or.inr hc.symm)

theorem Delimited.not_numberChar {c : Char} {rest : List Char}
    (hrest : Delimited (c :: rest)) : isNumberChar c = false := by
  rcases hrest c (by simp) with h | h | h <;> subst h <;> rfl

/-- Two delimited number tokens that read the same are the same. -/
theorem token_append_injective {token token' rest rest' : List Char}
    (htoken : ∀ c ∈ token, isNumberChar c = true)
    (htoken' : ∀ c ∈ token', isNumberChar c = true)
    (hrest : Delimited rest) (hrest' : Delimited rest')
    (h : token ++ rest = token' ++ rest') :
    token = token' ∧ rest = rest' := by
  induction token generalizing token' with
  | nil =>
      cases token' with
      | nil => exact ⟨rfl, h⟩
      | cons d token' =>
          simp only [List.nil_append, List.cons_append] at h
          subst h
          have hd := htoken' d List.mem_cons_self
          rw [hrest.not_numberChar] at hd
          exact absurd hd Bool.false_ne_true
  | cons c token ih =>
      cases token' with
      | nil =>
          simp only [List.nil_append, List.cons_append] at h
          subst h
          have hc := htoken c List.mem_cons_self
          rw [hrest'.not_numberChar] at hc
          exact absurd hc Bool.false_ne_true
      | cons d token' =>
          simp only [List.cons_append, List.cons.injEq] at h
          obtain ⟨htail, hr⟩ := ih
            (fun x hx => htoken x (List.mem_cons_of_mem _ hx))
            (fun x hx => htoken' x (List.mem_cons_of_mem _ hx)) h.2
          exact ⟨by rw [h.1, htail], hr⟩

variable {string : σ → List Char} {number : ν → List Char}

theorem render_head (hstring : StringTokens string)
    (hnumber : NumberTokens number) (value : Value σ ν) :
    ∃ c tail, render string number value = c :: tail ∧
      charKind c = value.kind := by
  cases value with
  | null => exact ⟨_, _, rfl, rfl⟩
  | bool b => cases b <;> exact ⟨_, _, rfl, rfl⟩
  | number n =>
      obtain ⟨c, tail, htoken⟩ :=
        List.exists_cons_of_ne_nil (hnumber.nonempty n)
      have hc : isNumberChar c = true :=
        hnumber.chars n c (by rw [htoken]; exact List.mem_cons_self)
      exact ⟨c, tail, htoken, by simp [charKind, hc, Value.kind]⟩
  | string s =>
      obtain ⟨tail, htoken⟩ := hstring.opens s
      exact ⟨quoteMark, tail, htoken, rfl⟩
  | array items => exact ⟨_, _, rfl, rfl⟩
  | object fields => exact ⟨_, _, rfl, rfl⟩

theorem kind_eq_of_render (hstring : StringTokens string)
    (hnumber : NumberTokens number)
    {value value' : Value σ ν} {rest rest' : List Char}
    (h : render string number value ++ rest =
      render string number value' ++ rest') :
    value.kind = value'.kind := by
  obtain ⟨c, tail, hvalue, hkind⟩ := render_head hstring hnumber value
  obtain ⟨c', tail', hvalue', hkind'⟩ := render_head hstring hnumber value'
  rw [hvalue, hvalue', List.cons_append, List.cons_append,
    List.cons.injEq] at h
  rw [← hkind, ← hkind', h.1]

theorem renderMoreItems_delimited (items : List (Value σ ν))
    (rest : List Char) :
    Delimited (renderMoreItems string number items ++ ']' :: rest) := by
  cases items with
  | nil => exact delimited_bracket rest
  | cons item items => exact delimited_comma _

theorem renderMoreFields_delimited (fields : List (σ × Value σ ν))
    (rest : List Char) :
    Delimited (renderMoreFields string number fields ++ '\x7d' :: rest) := by
  cases fields with
  | nil => exact delimited_brace rest
  | cons field fields =>
      obtain ⟨name, value⟩ := field
      exact delimited_comma _

theorem render_ne_bracket (hstring : StringTokens string)
    (hnumber : NumberTokens number)
    (value : Value σ ν) (rest tail : List Char) :
    render string number value ++ rest ≠ ']' :: tail := by
  obtain ⟨c, valueTail, hvalue, hkind⟩ := render_head hstring hnumber value
  intro h
  rw [hvalue, List.cons_append, List.cons.injEq] at h
  rw [h.1] at hkind
  cases value with
  | bool b =>
      cases b <;> exact absurd hkind (by simp only [Value.kind]; decide)
  | _ => exact absurd hkind (by simp only [Value.kind]; decide)

mutual

/-- A value followed by a delimiter is read back in only one way. -/
theorem render_append_injective (hstring : StringTokens string)
    (hnumber : NumberTokens number) :
    ∀ {value value' : Value σ ν} {rest rest' : List Char},
      Delimited rest → Delimited rest' →
      render string number value ++ rest =
        render string number value' ++ rest' →
      value = value' ∧ rest = rest'
  | .null, value', rest, rest', _, _, h => by
      have hkind := kind_eq_of_render hstring hnumber h
      cases value' with
      | null => exact ⟨rfl, by simpa [render] using h⟩
      | bool b => cases b <;> simp [Value.kind] at hkind
      | _ => simp [Value.kind] at hkind
  | .bool b, value', rest, rest', _, _, h => by
      have hkind := kind_eq_of_render hstring hnumber h
      cases value' with
      | bool b' =>
          cases b <;> cases b' <;> simp_all [Value.kind, render]
      | _ => cases b <;> simp [Value.kind] at hkind
  | .number n, value', rest, rest', hrest, hrest', h => by
      have hkind := kind_eq_of_render hstring hnumber h
      cases value' with
      | number n' =>
          simp only [render] at h
          obtain ⟨htoken, htail⟩ := token_append_injective
            (hnumber.chars n) (hnumber.chars n') hrest hrest' h
          exact ⟨by rw [hnumber.injective htoken], htail⟩
      | bool b => cases b <;> simp [Value.kind] at hkind
      | _ => simp [Value.kind] at hkind
  | .string s, value', rest, rest', _, _, h => by
      have hkind := kind_eq_of_render hstring hnumber h
      cases value' with
      | string s' =>
          simp only [render] at h
          obtain ⟨htext, htail⟩ := hstring.injective h
          exact ⟨by rw [htext], htail⟩
      | bool b => cases b <;> simp [Value.kind] at hkind
      | _ => simp [Value.kind] at hkind
  | .array items, value', rest, rest', _, _, h => by
      have hkind := kind_eq_of_render hstring hnumber h
      cases value' with
      | array items' =>
          simp only [render, List.cons_append, List.append_assoc,
            List.cons.injEq, true_and, List.nil_append] at h
          obtain ⟨hitems, htail⟩ :=
            renderItems_append_injective hstring hnumber h
          exact ⟨by rw [hitems], htail⟩
      | bool b => cases b <;> simp [Value.kind] at hkind
      | _ => simp [Value.kind] at hkind
  | .object fields, value', rest, rest', _, _, h => by
      have hkind := kind_eq_of_render hstring hnumber h
      cases value' with
      | object fields' =>
          simp only [render, List.cons_append, List.append_assoc,
            List.cons.injEq, true_and, List.nil_append] at h
          obtain ⟨hfields, htail⟩ :=
            renderFields_append_injective hstring hnumber h
          exact ⟨by rw [hfields], htail⟩
      | bool b => cases b <;> simp [Value.kind] at hkind
      | _ => simp [Value.kind] at hkind

theorem renderItems_append_injective (hstring : StringTokens string)
    (hnumber : NumberTokens number) :
    ∀ {items items' : List (Value σ ν)} {rest rest' : List Char},
      renderItems string number items ++ ']' :: rest =
        renderItems string number items' ++ ']' :: rest' →
      items = items' ∧ rest = rest'
  | [], [], rest, rest', h => by simpa [renderItems] using h
  | [], item' :: items', rest, rest', h => by
      simp only [renderItems, List.nil_append, List.append_assoc] at h
      exact absurd h.symm (render_ne_bracket hstring hnumber item' _ _)
  | item :: items, [], rest, rest', h => by
      simp only [renderItems, List.nil_append, List.append_assoc] at h
      exact absurd h (render_ne_bracket hstring hnumber item _ _)
  | item :: items, item' :: items', rest, rest', h => by
      simp only [renderItems, List.append_assoc] at h
      obtain ⟨hitem, htail⟩ := render_append_injective hstring hnumber
        (renderMoreItems_delimited items rest)
        (renderMoreItems_delimited items' rest') h
      obtain ⟨hitems, hrest⟩ :=
        renderMoreItems_append_injective hstring hnumber htail
      exact ⟨by rw [hitem, hitems], hrest⟩

theorem renderMoreItems_append_injective (hstring : StringTokens string)
    (hnumber : NumberTokens number) :
    ∀ {items items' : List (Value σ ν)} {rest rest' : List Char},
      renderMoreItems string number items ++ ']' :: rest =
        renderMoreItems string number items' ++ ']' :: rest' →
      items = items' ∧ rest = rest'
  | [], [], rest, rest', h => by simpa [renderMoreItems] using h
  | [], item' :: items', rest, rest', h => by
      simp [renderMoreItems] at h
  | item :: items, [], rest, rest', h => by
      simp [renderMoreItems] at h
  | item :: items, item' :: items', rest, rest', h => by
      simp only [renderMoreItems, List.cons_append, List.append_assoc,
        List.cons.injEq, true_and] at h
      obtain ⟨hitem, htail⟩ := render_append_injective hstring hnumber
        (renderMoreItems_delimited items rest)
        (renderMoreItems_delimited items' rest') h
      obtain ⟨hitems, hrest⟩ :=
        renderMoreItems_append_injective hstring hnumber htail
      exact ⟨by rw [hitem, hitems], hrest⟩

theorem renderFields_append_injective (hstring : StringTokens string)
    (hnumber : NumberTokens number) :
    ∀ {fields fields' : List (σ × Value σ ν)} {rest rest' : List Char},
      renderFields string number fields ++ '\x7d' :: rest =
        renderFields string number fields' ++ '\x7d' :: rest' →
      fields = fields' ∧ rest = rest'
  | [], [], rest, rest', h => by simpa [renderFields] using h
  | [], (name', value') :: fields', rest, rest', h => by
      obtain ⟨tail, htoken⟩ := hstring.opens name'
      simp [renderFields, htoken, quoteMark] at h
  | (name, value) :: fields, [], rest, rest', h => by
      obtain ⟨tail, htoken⟩ := hstring.opens name
      simp [renderFields, htoken, quoteMark] at h
  | (name, value) :: fields, (name', value') :: fields', rest, rest', h => by
      simp only [renderFields, List.append_assoc, List.cons_append] at h
      obtain ⟨hname, hvalue⟩ := hstring.injective h
      rw [List.cons.injEq] at hvalue
      obtain ⟨hvalue, htail⟩ := render_append_injective hstring hnumber
        (renderMoreFields_delimited fields rest)
        (renderMoreFields_delimited fields' rest') hvalue.2
      obtain ⟨hfields, hrest⟩ :=
        renderMoreFields_append_injective hstring hnumber htail
      exact ⟨by rw [hname, hvalue, hfields], hrest⟩

theorem renderMoreFields_append_injective (hstring : StringTokens string)
    (hnumber : NumberTokens number) :
    ∀ {fields fields' : List (σ × Value σ ν)} {rest rest' : List Char},
      renderMoreFields string number fields ++ '\x7d' :: rest =
        renderMoreFields string number fields' ++ '\x7d' :: rest' →
      fields = fields' ∧ rest = rest'
  | [], [], rest, rest', h => by simpa [renderMoreFields] using h
  | [], (name', value') :: fields', rest, rest', h => by
      simp [renderMoreFields] at h
  | (name, value) :: fields, [], rest, rest', h => by
      simp [renderMoreFields] at h
  | (name, value) :: fields, (name', value') :: fields', rest, rest', h => by
      simp only [renderMoreFields, List.append_assoc, List.cons_append,
        List.cons.injEq, true_and] at h
      obtain ⟨hname, hvalue⟩ := hstring.injective h
      rw [List.cons.injEq] at hvalue
      obtain ⟨hvalue, htail⟩ := render_append_injective hstring hnumber
        (renderMoreFields_delimited fields rest)
        (renderMoreFields_delimited fields' rest') hvalue.2
      obtain ⟨hfields, hrest⟩ :=
        renderMoreFields_append_injective hstring hnumber htail
      exact ⟨by rw [hname, hvalue, hfields], hrest⟩

end

theorem render_injective (hstring : StringTokens string)
    (hnumber : NumberTokens number) :
    Function.Injective (render string number) := by
  intro value value' h
  have happend :
      render string number value ++ [] = render string number value' ++ [] := by
    rw [List.append_nil, List.append_nil, h]
  exact (render_append_injective hstring hnumber delimited_nil delimited_nil
    happend).1

end

end JsonText
