import Mathlib.Algebra.GroupWithZero.Nat
import Mathlib.Data.List.Lex
import StonksPaper.Base.Aligned
import StonksPaper.Base.Chain

/-!
# JSON values and their canonical encoding

A value is a scalar or a reference to a container of the heap, so that one container can occur many
times in a value, also within itself. `canonical_json` is given by how deep it looks; the length of
its UTF-8 encoding is what the measure of a payload must find.
-/

namespace StonksPaper

open Chain

namespace Snapshots

/-! ## Text -/

/-- A code point of a `str`; surrogates are among them. -/
abbrev CodePoint := Fin 1114112

instance codePoints_neZero : NeZero 1114112 := ⟨by decide⟩

abbrev Text := List CodePoint

def ascii (text : String) : Text := text.toList.map fun c => Fin.ofNat 1114112 c.toNat

/-- The bytes of a code point; a surrogate cannot be encoded. -/
def utf8Size (c : CodePoint) : Option ℕ :=
  if c.val < 128 then some 1
  else if c.val < 2048 then some 2
  else if 55296 ≤ c.val ∧ c.val < 57344 then none
  else if c.val < 65536 then some 3
  else some 4

/-- `len(text.encode("utf-8"))`. -/
def utf8Length : Text → Option ℕ
  | [] => some 0
  | c :: cs => do
      let size ← utf8Size c
      let rest ← utf8Length cs
      return size + rest

/-- The texts, separated by commas. -/
def joined : List Text → Text
  | [] => []
  | [text] => text
  | text :: next :: texts => text ++ 44 :: joined (next :: texts)

section

variable {text other : Text} {texts : List Text} {n : ℕ}

theorem utf8Length_cons {c : CodePoint} : utf8Length (c :: text) = some n ↔
    ∃ size rest, utf8Size c = some size ∧ utf8Length text = some rest ∧ size + rest = n := by
  simp only [utf8Length, Option.bind_eq_bind, Option.bind_eq_some_iff, Option.pure_def,
    Option.some.injEq]
  constructor
  · intro h
    obtain ⟨size, hsize, rest, hrest, hsum⟩ := h
    exact ⟨size, rest, hsize, hrest, hsum⟩
  · intro h
    obtain ⟨size, rest, hsize, hrest, hsum⟩ := h
    exact ⟨size, hsize, rest, hrest, hsum⟩

theorem utf8Length_append : utf8Length (text ++ other) = some n ↔
    ∃ first second, utf8Length text = some first ∧ utf8Length other = some second ∧
      first + second = n := by
  induction text generalizing n with
  | nil => simp [utf8Length]
  | cons c text ih =>
      rw [List.cons_append, utf8Length_cons]
      constructor
      · intro h
        obtain ⟨size, rest, hsize, hrest, hsum⟩ := h
        obtain ⟨first, second, hfirst, hsecond, hrest⟩ := ih.mp hrest
        exact ⟨size + first, second, utf8Length_cons.mpr ⟨size, first, hsize, hfirst, rfl⟩,
          hsecond, by omega⟩
      · intro h
        obtain ⟨first, second, hfirst, hsecond, hsum⟩ := h
        obtain ⟨size, rest, hsize, hrest, hfirst⟩ := utf8Length_cons.mp hfirst
        exact ⟨size, rest + second, hsize, ih.mpr ⟨rest, second, hrest, hsecond, rfl⟩, by omega⟩

theorem utf8Length_ascii_cons {c : CodePoint} (hc : c.val < 128) :
    utf8Length (c :: text) = some n ↔ ∃ rest, utf8Length text = some rest ∧ 1 + rest = n := by
  have hsize : utf8Size c = some 1 := if_pos hc
  rw [utf8Length_cons]
  simp only [hsize, Option.some.injEq]
  constructor
  · intro h
    obtain ⟨size, rest, rfl, hrest, hsum⟩ := h
    exact ⟨rest, hrest, hsum⟩
  · intro h
    obtain ⟨rest, hrest, hsum⟩ := h
    exact ⟨1, rest, rfl, hrest, hsum⟩

/-- A text in a pair of ASCII characters. -/
theorem utf8Length_enclosed {c d : CodePoint} (hc : c.val < 128) (hd : d.val < 128) :
    utf8Length (c :: (text ++ [d])) = some n ↔
      ∃ inner, utf8Length text = some inner ∧ 2 + inner = n := by
  have hlast : utf8Length [d] = some 1 :=
    (utf8Length_ascii_cons hd).mpr ⟨0, rfl, rfl⟩
  rw [utf8Length_ascii_cons hc]
  constructor
  · intro h
    obtain ⟨rest, hrest, hsum⟩ := h
    obtain ⟨first, second, hfirst, hsecond, hrest⟩ := utf8Length_append.mp hrest
    rw [hlast, Option.some.injEq] at hsecond
    exact ⟨first, hfirst, by omega⟩
  · intro h
    obtain ⟨inner, hinner, hsum⟩ := h
    exact ⟨inner + 1, utf8Length_append.mpr ⟨inner, 1, hinner, hlast, rfl⟩, by omega⟩

/-- Joined texts take their own bytes, and one for each comma. -/
theorem utf8Length_joined : utf8Length (joined texts) = some n ↔
    ∃ sizes, List.Forall₂ (fun text size => utf8Length text = some size) texts sizes ∧
      texts.length - 1 + sizes.sum = n := by
  induction texts using joined.induct generalizing n with
  | case1 =>
      constructor
      · intro h
        exact ⟨[], .nil, Option.some.inj h⟩
      · intro h
        obtain ⟨sizes, hsizes, rfl⟩ := h
        cases hsizes
        rfl
  | case2 text =>
      constructor
      · intro h
        exact ⟨[n], .cons h .nil, by simp⟩
      · intro h
        obtain ⟨sizes, hsizes, rfl⟩ := h
        cases hsizes with
        | cons hsize hrest =>
            cases hrest
            simpa [joined] using hsize
  | case3 text next texts ih =>
      have hcomma : (44 : CodePoint).val < 128 := by decide
      rw [joined, utf8Length_append]
      constructor
      · intro h
        obtain ⟨first, second, hfirst, hsecond, hsum⟩ := h
        obtain ⟨rest, hrest, hsecond⟩ := (utf8Length_ascii_cons hcomma).mp hsecond
        obtain ⟨sizes, hsizes, hsizesSum⟩ := ih.mp hrest
        refine ⟨first :: sizes, .cons hfirst hsizes, ?_⟩
        simp only [List.length_cons, List.sum_cons] at hsizesSum ⊢
        omega
      · intro h
        obtain ⟨sizes, hsizes, hsum⟩ := h
        cases hsizes with
        | @cons _ first _ sizes hfirst hsizes =>
            refine ⟨first, 1 + ((next :: texts).length - 1 + sizes.sum), hfirst,
              (utf8Length_ascii_cons hcomma).mpr ⟨_, ih.mpr ⟨sizes, hsizes, rfl⟩, rfl⟩, ?_⟩
            simp only [List.length_cons, List.sum_cons] at hsum ⊢
            omega

end

/-! ## Values -/

/-- What is read of a `float`: whether it is finite, and its `repr`. -/
class PyFloat (F : Type) where
  isFinite : F → Bool
  repr : F → Text

inductive Scalar (F : Type) where
  | null
  | bool (value : Bool)
  | int (value : ℤ)
  | float (value : F)
  | text (value : Text)
deriving DecidableEq

/-- Anything that can be an item: a scalar, a container by its identity, or no JSON value. -/
inductive Value (F : Type) where
  | scalar (value : Scalar F)
  | ref (identity : ℕ)
  | other
deriving DecidableEq

/-- A key of a `dict`; only a `str` is one of a JSON object. -/
inductive Key where
  | text (value : Text)
  | other (value : ℕ)
deriving DecidableEq

/-- A `list`, or a `dict` in the order of its entries. -/
inductive Container (F : Type) where
  | list (items : List (Value F))
  | map (entries : List (Key × Value F)) (unique : (entries.map (·.1)).Nodup)

abbrev Heap (F : Type) := ℕ → Container F

def Container.children {F : Type} : Container F → List (Value F)
  | .list items => items
  | .map entries _ => entries.map (·.2)

def Key.isText : Key → Bool
  | .text _ => true
  | .other _ => false

/-- The entries whose keys are strings, sorted by their keys. -/
def sortedEntries {F : Type} (entries : List (Key × Value F)) : List (Text × Value F) :=
  sorted (·.1) <| entries.filterMap fun entry => match entry.1 with
    | .text key => some (key, entry.2)
    | .other _ => none

/-- Lists in step whose partners have one key are sorted in step. -/
theorem sorted_inStep {α β γ : Type} [LinearOrder α] {R : β → γ → Prop} {key : β → α} {key' : γ → α}
    {xs : List β} {ys : List γ} (h : List.Forall₂ R xs ys) (hkey : ∀ x y, R x y → key x = key' y) :
    List.Forall₂ R (sorted key xs) (sorted key' ys) := by
  have hinsert : ∀ {x y} {xs : List β} {ys : List γ}, R x y → List.Forall₂ R xs ys →
      List.Forall₂ R (xs.orderedInsert (fun a b => key a ≤ key b) x)
        (ys.orderedInsert (fun a b => key' a ≤ key' b) y) := by
    intro x y xs ys hxy hrest
    induction hrest with
    | nil => exact .cons hxy .nil
    | cons hab hrest ih =>
        rw [List.orderedInsert_cons, List.orderedInsert_cons, hkey _ _ hxy, hkey _ _ hab]
        split
        · exact .cons hxy (.cons hab hrest)
        · exact .cons hab ih
  unfold sorted
  induction h with
  | nil => exact .nil
  | cons hxy _ ih => exact hinsert hxy ih

/-- Entries in step under the same keys are sorted in step. -/
theorem sortedEntries_inStep {F : Type} {R : Value F → Value F → Prop}
    {entries entries' : List (Key × Value F)}
    (h : List.Forall₂ (fun entry entry' => entry.1 = entry'.1 ∧ R entry.2 entry'.2)
      entries entries') :
    List.Forall₂ (fun entry entry' => entry.1 = entry'.1 ∧ R entry.2 entry'.2)
      (sortedEntries entries) (sortedEntries entries') := by
  refine sorted_inStep ?_ fun entry entry' hboth => hboth.1
  induction h with
  | nil => exact .nil
  | @cons entry entry' _ _ hboth _ ih =>
      obtain ⟨key, value⟩ := entry
      obtain ⟨key', value'⟩ := entry'
      obtain ⟨hkey, hvalue⟩ := hboth
      obtain rfl : key = key' := hkey
      cases key with
      | text key => exact .cons ⟨rfl, hvalue⟩ ih
      | other _ => exact ih

/-! ## Encoding -/

/-- The escapes of `json.dumps(..., ensure_ascii=False)`. -/
def escape (c : CodePoint) : Text :=
  if c = 34 then [92, 34]
  else if c = 92 then [92, 92]
  else if c = 10 then [92, 110]
  else if c = 13 then [92, 114]
  else if c = 9 then [92, 116]
  else if c = 12 then [92, 102]
  else if c = 8 then [92, 98]
  else if c.val < 32 then
    [92, 117, 48, 48] ++
      ascii (String.ofList [Nat.digitChar (c.val / 16), Nat.digitChar (c.val % 16)])
  else [c]

def quoted (text : Text) : Text := 34 :: (text.flatMap escape ++ [34])

/-- `str` of an integer, which refuses more than 4300 digits. -/
def intText (n : ℤ) : Option Text :=
  if (Nat.toDigits 10 n.natAbs).length ≤ 4300 then some (ascii (toString n)) else none

section

variable {F : Type} [PyFloat F] {heap : Heap F} {levels n identity : ℕ} {value : Value F}
  {items : List (Value F)} {entries : List (Key × Value F)}

def scalarText : Scalar F → Option Text
  | .null => some (ascii "null")
  | .bool true => some (ascii "true")
  | .bool false => some (ascii "false")
  | .int n => intText n
  | .float x => if PyFloat.isFinite x then some (PyFloat.repr x) else none
  | .text text => some (quoted text)

/-- `canonical_json`, of a value that nests no deeper than the levels. -/
def canonicalJson (heap : Heap F) : ℕ → Value F → Option Text
  | 0, _ => none
  | _ + 1, .scalar value => scalarText value
  | levels + 1, .ref identity => match heap identity with
      | .list items => do
          let texts ← items.mapM (canonicalJson heap levels)
          return 91 :: (joined texts ++ [93])
      | .map entries _ =>
          if entries.all (·.1.isText) then do
            let texts ← (sortedEntries entries).mapM fun entry => do
              let text ← canonicalJson heap levels entry.2
              return quoted entry.1 ++ 58 :: text
            return 123 :: (joined texts ++ [125])
          else none
  | _ + 1, .other => none

def Sized (heap : Heap F) (levels : ℕ) (value : Value F) (n : ℕ) : Prop :=
  ∃ text, canonicalJson heap levels value = some text ∧ utf8Length text = some n

def CanonicalSize (heap : Heap F) (value : Value F) (n : ℕ) : Prop :=
  ∃ levels, Sized heap levels value n

theorem sized_scalar {scalar : Scalar F} : Sized heap (levels + 1) (.scalar scalar) n ↔
    ∃ text, scalarText scalar = some text ∧ utf8Length text = some n := Iff.rfl

/-- Related entries of lists in step, through a value between them. -/
theorem sizes_of_texts {α : Type} {encode : α → Option Text} {xs : List α} {sizes : List ℕ} :
    (∃ texts, xs.mapM encode = some texts ∧
      List.Forall₂ (fun text size => utf8Length text = some size) texts sizes) ↔
    List.Forall₂ (fun x size => ∃ text, encode x = some text ∧ utf8Length text = some size)
      xs sizes := by
  simp only [List.Forall₂.mapM_eq_some]
  induction xs generalizing sizes with
  | nil =>
      constructor
      · intro h
        obtain ⟨texts, htexts, hsizes⟩ := h
        cases htexts
        cases hsizes
        exact .nil
      · intro h
        cases h
        exact ⟨[], .nil, .nil⟩
  | cons x xs ih =>
      constructor
      · intro h
        obtain ⟨texts, htexts, hsizes⟩ := h
        cases htexts with
        | cons htext htexts =>
            cases hsizes with
            | cons hsize hsizes => exact .cons ⟨_, htext, hsize⟩ (ih.mp ⟨_, htexts, hsizes⟩)
      · intro h
        cases h with
        | cons hx hxs =>
            obtain ⟨text, htext, hsize⟩ := hx
            obtain ⟨texts, htexts, hsizes⟩ := ih.mpr hxs
            exact ⟨text :: texts, .cons htext htexts, .cons hsize hsizes⟩

/-- A list takes its brackets, its commas and its items. -/
theorem sized_list (hlist : heap identity = .list items) :
    Sized heap (levels + 1) (.ref identity) n ↔ ∃ sizes,
      List.Forall₂ (Sized heap levels) items sizes ∧
        2 + (items.length - 1) + sizes.sum = n := by
  have hopen : (91 : CodePoint).val < 128 := by decide
  have hclose : (93 : CodePoint).val < 128 := by decide
  simp only [Sized, canonicalJson, hlist, Option.bind_eq_bind, Option.pure_def,
    Option.bind_eq_some_iff, Option.some.injEq]
  constructor
  · intro h
    obtain ⟨_, ⟨texts, htexts, rfl⟩, hlength⟩ := h
    obtain ⟨inner, hinner, hsum⟩ := (utf8Length_enclosed hopen hclose).mp hlength
    obtain ⟨sizes, hsizes, hjoined⟩ := utf8Length_joined.mp hinner
    have hcount := (List.Forall₂.mapM_eq_some.mp htexts).length_eq
    exact ⟨sizes, sizes_of_texts.mp ⟨texts, htexts, hsizes⟩, by omega⟩
  · intro h
    obtain ⟨sizes, hsizes, hsum⟩ := h
    obtain ⟨texts, htexts, hlengths⟩ := sizes_of_texts.mpr hsizes
    have hcount := (List.Forall₂.mapM_eq_some.mp htexts).length_eq
    exact ⟨_, ⟨texts, htexts, rfl⟩, (utf8Length_enclosed hopen hclose).mpr
      ⟨_, utf8Length_joined.mpr ⟨sizes, hlengths, rfl⟩, by omega⟩⟩

/-- The bytes of an entry of an object: its key, a colon and its value. -/
def EntrySized (heap : Heap F) (levels : ℕ) (entry : Text × Value F) (n : ℕ) : Prop :=
  ∃ key size, utf8Length (quoted entry.1) = some key ∧ Sized heap levels entry.2 size ∧
    key + 1 + size = n

theorem entrySized_iff {entry : Text × Value F} : (∃ text,
    (do let text ← canonicalJson heap levels entry.2; return quoted entry.1 ++ 58 :: text) =
      some text ∧ utf8Length text = some n) ↔ EntrySized heap levels entry n := by
  have hcolon : (58 : CodePoint).val < 128 := by decide
  simp only [Option.bind_eq_bind, Option.pure_def, Option.bind_eq_some_iff, Option.some.injEq]
  constructor
  · intro h
    obtain ⟨_, ⟨text, htext, rfl⟩, hlength⟩ := h
    obtain ⟨key, second, hkey, hsecond, hsum⟩ := utf8Length_append.mp hlength
    obtain ⟨size, hsize, hcolonSum⟩ := (utf8Length_ascii_cons hcolon).mp hsecond
    exact ⟨key, size, hkey, ⟨text, htext, hsize⟩, by omega⟩
  · intro h
    obtain ⟨key, size, hkey, ⟨text, htext, hsize⟩, hsum⟩ := h
    exact ⟨_, ⟨text, htext, rfl⟩, utf8Length_append.mpr
      ⟨key, 1 + size, hkey, (utf8Length_ascii_cons hcolon).mpr ⟨size, hsize, rfl⟩, by omega⟩⟩

/-- An object takes its braces, its commas and its entries. -/
theorem sized_map {unique : (entries.map (·.1)).Nodup} (hmap : heap identity = .map entries unique)
    (htext : entries.all (·.1.isText) = true) :
    Sized heap (levels + 1) (.ref identity) n ↔ ∃ sizes,
      List.Forall₂ (EntrySized heap levels) (sortedEntries entries) sizes ∧
        2 + ((sortedEntries entries).length - 1) + sizes.sum = n := by
  have hopen : (123 : CodePoint).val < 128 := by decide
  have hclose : (125 : CodePoint).val < 128 := by decide
  have hentry : EntrySized heap levels = fun entry size => ∃ text,
      (do let text ← canonicalJson heap levels entry.2; return quoted entry.1 ++ 58 :: text) =
        some text ∧ utf8Length text = some size := by
    funext entry size
    exact propext entrySized_iff.symm
  rw [hentry]
  simp only [Sized, canonicalJson, hmap, htext, if_true]
  constructor
  · intro h
    obtain ⟨_, hdumped, hlength⟩ := h
    obtain ⟨texts, htexts, hencoded⟩ := Option.bind_eq_some_iff.mp hdumped
    obtain rfl := Option.some.inj hencoded
    obtain ⟨inner, hinner, hsum⟩ := (utf8Length_enclosed hopen hclose).mp hlength
    obtain ⟨sizes, hsizes, hjoined⟩ := utf8Length_joined.mp hinner
    have hcount := (List.Forall₂.mapM_eq_some.mp htexts).length_eq
    exact ⟨sizes, sizes_of_texts.mp ⟨texts, htexts, hsizes⟩, by omega⟩
  · intro h
    obtain ⟨sizes, hsizes, hsum⟩ := h
    obtain ⟨texts, htexts, hlengths⟩ := sizes_of_texts.mpr hsizes
    have hcount := (List.Forall₂.mapM_eq_some.mp htexts).length_eq
    exact ⟨_, Option.bind_eq_some_iff.mpr ⟨texts, htexts, rfl⟩,
      (utf8Length_enclosed hopen hclose).mpr
        ⟨_, utf8Length_joined.mpr ⟨sizes, hlengths, rfl⟩, by omega⟩⟩

end

end Snapshots

end StonksPaper
