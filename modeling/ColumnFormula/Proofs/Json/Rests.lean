import ColumnFormula.Proofs.Json.RoundTrip

/-!
# What reading leaves

A reader leaves the end of a text. What it leaves depends on the text alone, not on its fuel or on
how deeply it may go down, so a grammar of the rests describes all readings that succeed.
-/

namespace ColumnFormula.Json

/-- What is read of a text: the rest of a string, a value, or the rest of an array or object behind
its opening bracket, of which there is some. -/
inductive Part where
  | string
  | value
  | items
  | fields

/-- A part is read from a text, and some rest is left. -/
inductive Reads : Part → List Char → List Char → Prop
  | quote (rest : List Char) : Reads .string ('"' :: rest) rest
  | char {s t rest : List Char} {c : Char} (hquote : s.head? ≠ some '"')
      (hchar : readChar s = some (c, t)) (hstring : Reads .string t rest) : Reads .string s rest
  | scalar {s rest : List Char} {value : Json} (hhead : ∀ c ∈ s.head?, c ∉ ['"', '[', '\x7b'])
      (hscalar : readScalar s = .ok (value, rest)) : Reads .value s rest
  | text {s rest : List Char} (hstring : Reads .string s rest) : Reads .value ('"' :: s) rest
  | emptyArr {s rest : List Char} (hclose : skipSpace s = ']' :: rest) :
      Reads .value ('[' :: s) rest
  | arr {s rest : List Char} (hopen : (skipSpace s).head? ≠ some ']')
      (hitems : Reads .items (skipSpace s) rest) : Reads .value ('[' :: s) rest
  | emptyObj {s rest : List Char} (hclose : skipSpace s = '\x7d' :: rest) :
      Reads .value ('\x7b' :: s) rest
  | obj {s rest : List Char} (hopen : (skipSpace s).head? ≠ some '\x7d')
      (hfields : Reads .fields (skipSpace s) rest) : Reads .value ('\x7b' :: s) rest
  | item {s t rest : List Char} (hvalue : Reads .value s t) (hclose : skipSpace t = ']' :: rest) :
      Reads .items s rest
  | items {s t u rest : List Char} (hvalue : Reads .value s t) (hcomma : skipSpace t = ',' :: u)
      (hitems : Reads .items (skipSpace u) rest) : Reads .items s rest
  | field {s t u v rest : List Char} (hkey : Reads .string s t) (hcolon : skipSpace t = ':' :: u)
      (hvalue : Reads .value (skipSpace u) v) (hclose : skipSpace v = '\x7d' :: rest) :
      Reads .fields ('"' :: s) rest
  | fields {s t u v x rest : List Char} (hkey : Reads .string s t)
      (hcolon : skipSpace t = ':' :: u) (hvalue : Reads .value (skipSpace u) v)
      (hcomma : skipSpace v = ',' :: x) (hfields : Reads .fields (skipSpace x) rest) :
      Reads .fields ('"' :: s) rest

/-! ## Readers -/

theorem exists_of_map_eq_ok {ε α β : Type} {f : α → β} {x : Except ε α} {b : β}
    (h : x.map f = .ok b) : ∃ a, x = .ok a ∧ f a = b := by
  cases x with
  | error error => cases h
  | ok a => exact ⟨a, rfl, Except.ok.inj h⟩

theorem exists_of_bind_eq_ok {ε α β : Type} {f : α → Except ε β} {x : Except ε α} {b : β}
    (h : x >>= f = .ok b) : ∃ a, x = .ok a ∧ f a = .ok b := by
  cases x with
  | error error => cases h
  | ok a => exact ⟨a, rfl, h⟩

theorem head?_ne_of_forall {c : Char} {s : List Char} (h : ∀ t, s = c :: t → False) :
    s.head? ≠ some c := by
  intro hhead
  obtain ⟨t, ht⟩ := List.head?_eq_some_iff.mp hhead
  exact h t ht

theorem reads_of_readString {fuel : Nat} {s chars rest : List Char}
    (h : readString fuel s = .ok (chars, rest)) : Reads .string s rest := by
  induction fuel generalizing s chars with
  | zero => cases h
  | succ fuel ih =>
      rw [readString.eq_def] at h
      dsimp only at h
      split at h
      next =>
        obtain ⟨-, rfl⟩ := Prod.mk.inj (Except.ok.inj h)
        exact .quote _
      next hquote =>
        split at h
        next => cases h
        next c t hchar =>
          obtain ⟨result, hread, hresult⟩ := exists_of_map_eq_ok h
          obtain ⟨-, rfl⟩ := Prod.mk.inj hresult
          exact .char (head?_ne_of_forall hquote) hchar (ih hread)

theorem reads_of_readKey {fuel : Nat} {s rest : List Char} {key : String}
    (h : readKey fuel s = .ok (key, rest)) :
    ∃ t u v, s = '"' :: t ∧ Reads .string t u ∧ skipSpace u = ':' :: v ∧ skipSpace v = rest := by
  rw [readKey.eq_def] at h
  split at h
  next t =>
    obtain ⟨result, hread, hcolon⟩ := exists_of_bind_eq_ok h
    dsimp only at hcolon
    split at hcolon
    next v heq =>
      obtain ⟨-, hrest⟩ := Prod.mk.inj (Except.ok.inj hcolon)
      exact ⟨t, result.2, v, rfl, reads_of_readString hread, heq, hrest⟩
    next => cases hcolon
  next => cases h

/-- Every reading that succeeds is one by the grammar. -/
theorem reads_of_readers (fuel : Nat) :
    (∀ {depth s value rest}, readValue fuel depth s = .ok (value, rest) → Reads .value s rest) ∧
    (∀ {depth s items rest}, readItems fuel depth s = .ok (items, rest) → Reads .items s rest) ∧
    ∀ {depth s fields rest}, readFields fuel depth s = .ok (fields, rest) →
      Reads .fields s rest := by
  induction fuel with
  | zero => exact ⟨fun h => (by cases h), fun h => (by cases h), fun h => (by cases h)⟩
  | succ fuel ih =>
      obtain ⟨ihValue, ihItems, ihFields⟩ := ih
      refine ⟨?value, ?items, ?fields⟩
      case value =>
        intro depth s value rest h
        rw [readValue.eq_def] at h
        dsimp only at h
        split at h
        next =>
          obtain ⟨result, hread, hresult⟩ := exists_of_map_eq_ok h
          obtain ⟨-, rfl⟩ := Prod.mk.inj hresult
          exact .text (reads_of_readString hread)
        next =>
          split at h
          next hclose =>
            obtain ⟨-, rfl⟩ := Prod.mk.inj (Except.ok.inj h)
            exact .emptyArr hclose
          next hopen =>
            obtain ⟨result, hread, hresult⟩ := exists_of_map_eq_ok h
            obtain ⟨-, rfl⟩ := Prod.mk.inj hresult
            exact .arr (head?_ne_of_forall hopen) (ihItems hread)
        next =>
          split at h
          next hclose =>
            obtain ⟨-, rfl⟩ := Prod.mk.inj (Except.ok.inj h)
            exact .emptyObj hclose
          next hopen =>
            obtain ⟨result, hread, hresult⟩ := exists_of_map_eq_ok h
            obtain ⟨-, rfl⟩ := Prod.mk.inj hresult
            exact .obj (head?_ne_of_forall hopen) (ihFields hread)
        next => cases h
        next => cases h
        next hquote harr hobj hdeepArr hdeepObj =>
          refine .scalar ?_ h
          intro c hc
          obtain ⟨t, rfl⟩ := List.head?_eq_some_iff.mp hc
          simp only [List.mem_cons, List.not_mem_nil, or_false]
          rintro (rfl | rfl | rfl)
          · exact hquote t rfl
          · cases depth with
            | zero => exact hdeepArr t rfl rfl
            | succ depth => exact harr t depth rfl rfl
          · cases depth with
            | zero => exact hdeepObj t rfl rfl
            | succ depth => exact hobj t depth rfl rfl
      case items =>
        intro depth s items rest h
        rw [readItems] at h
        obtain ⟨⟨item, t⟩, hvalue, h⟩ := exists_of_bind_eq_ok h
        dsimp only at h
        split at h
        next u hcomma =>
          obtain ⟨⟨items, rest⟩, hitems, hresult⟩ := exists_of_bind_eq_ok h
          obtain ⟨-, rfl⟩ := Prod.mk.inj (Except.ok.inj hresult)
          exact .items (ihValue hvalue) hcomma (ihItems hitems)
        next hclose =>
          obtain ⟨-, rfl⟩ := Prod.mk.inj (Except.ok.inj h)
          exact .item (ihValue hvalue) hclose
        next => cases h
      case fields =>
        intro depth s fields rest h
        rw [readFields] at h
        obtain ⟨⟨key, s'⟩, hkey, h⟩ := exists_of_bind_eq_ok h
        obtain ⟨t, u, v, rfl, hstring, hcolon, rfl⟩ := reads_of_readKey hkey
        obtain ⟨⟨value, x⟩, hvalue, h⟩ := exists_of_bind_eq_ok h
        dsimp only at h
        split at h
        next y hcomma =>
          obtain ⟨⟨fields, rest⟩, hfields, hresult⟩ := exists_of_bind_eq_ok h
          obtain ⟨-, rfl⟩ := Prod.mk.inj (Except.ok.inj hresult)
          exact .fields hstring hcolon (ihValue hvalue) hcomma (ihFields hfields)
        next hclose =>
          obtain ⟨-, rfl⟩ := Prod.mk.inj (Except.ok.inj h)
          exact .field hstring hcolon (ihValue hvalue) hclose
        next => cases h

/-! ## Rests are unique -/

theorem Reads.unique {part : Part} {s rest other : List Char} (h : Reads part s rest)
    (hother : Reads part s other) : rest = other := by
  induction h generalizing other with
  | quote rest =>
      cases hother with
      | quote => rfl
      | char hquote => exact absurd rfl hquote
  | char hquote hchar hstring ih =>
      cases hother with
      | quote => exact absurd rfl hquote
      | char _ hchar' hstring' =>
          obtain ⟨-, rfl⟩ := Prod.mk.inj (Option.some.inj (hchar.symm.trans hchar'))
          exact ih hstring'
  | scalar hhead hscalar =>
      cases hother with
      | scalar _ hscalar' => exact (Prod.mk.inj (Except.ok.inj (hscalar.symm.trans hscalar'))).2
      | _ => exact absurd (hhead _ rfl) (by decide)
  | text hstring ih =>
      cases hother with
      | scalar hhead => exact absurd (hhead _ rfl) (by decide)
      | text hstring' => exact ih hstring'
  | emptyArr hclose =>
      cases hother with
      | scalar hhead => exact absurd (hhead _ rfl) (by decide)
      | emptyArr hclose' => exact (List.cons.inj (hclose.symm.trans hclose')).2
      | arr hopen => exact absurd (by rw [hclose]; rfl) hopen
  | arr hopen hitems ih =>
      cases hother with
      | scalar hhead => exact absurd (hhead _ rfl) (by decide)
      | emptyArr hclose => exact absurd (by rw [hclose]; rfl) hopen
      | arr _ hitems' => exact ih hitems'
  | emptyObj hclose =>
      cases hother with
      | scalar hhead => exact absurd (hhead _ rfl) (by decide)
      | emptyObj hclose' => exact (List.cons.inj (hclose.symm.trans hclose')).2
      | obj hopen => exact absurd (by rw [hclose]; rfl) hopen
  | obj hopen hfields ih =>
      cases hother with
      | scalar hhead => exact absurd (hhead _ rfl) (by decide)
      | emptyObj hclose => exact absurd (by rw [hclose]; rfl) hopen
      | obj _ hfields' => exact ih hfields'
  | item hvalue hclose ih =>
      cases hother with
      | item hvalue' hclose' =>
          obtain rfl := ih hvalue'
          exact (List.cons.inj (hclose.symm.trans hclose')).2
      | items hvalue' hcomma =>
          obtain rfl := ih hvalue'
          exact absurd (List.cons.inj (hclose.symm.trans hcomma)).1 (by decide)
  | items hvalue hcomma hitems ihValue ihItems =>
      cases hother with
      | item hvalue' hclose =>
          obtain rfl := ihValue hvalue'
          exact absurd (List.cons.inj (hcomma.symm.trans hclose)).1 (by decide)
      | items hvalue' hcomma' hitems' =>
          obtain rfl := ihValue hvalue'
          obtain ⟨-, rfl⟩ := List.cons.inj (hcomma.symm.trans hcomma')
          exact ihItems hitems'
  | field hkey hcolon hvalue hclose ihKey ihValue =>
      cases hother with
      | field hkey' hcolon' hvalue' hclose' =>
          obtain rfl := ihKey hkey'
          obtain ⟨-, rfl⟩ := List.cons.inj (hcolon.symm.trans hcolon')
          obtain rfl := ihValue hvalue'
          exact (List.cons.inj (hclose.symm.trans hclose')).2
      | fields hkey' hcolon' hvalue' hcomma =>
          obtain rfl := ihKey hkey'
          obtain ⟨-, rfl⟩ := List.cons.inj (hcolon.symm.trans hcolon')
          obtain rfl := ihValue hvalue'
          exact absurd (List.cons.inj (hclose.symm.trans hcomma)).1 (by decide)
  | fields hkey hcolon hvalue hcomma hfields ihKey ihValue ihFields =>
      cases hother with
      | field hkey' hcolon' hvalue' hclose =>
          obtain rfl := ihKey hkey'
          obtain ⟨-, rfl⟩ := List.cons.inj (hcolon.symm.trans hcolon')
          obtain rfl := ihValue hvalue'
          exact absurd (List.cons.inj (hcomma.symm.trans hclose)).1 (by decide)
      | fields hkey' hcolon' hvalue' hcomma' hfields' =>
          obtain rfl := ihKey hkey'
          obtain ⟨-, rfl⟩ := List.cons.inj (hcolon.symm.trans hcolon')
          obtain rfl := ihValue hvalue'
          obtain ⟨-, rfl⟩ := List.cons.inj (hcomma.symm.trans hcomma')
          exact ihFields hfields'

end ColumnFormula.Json
