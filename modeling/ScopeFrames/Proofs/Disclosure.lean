import Mathlib.Data.List.Forall2
import ScopeFrames.Listing
import ScopeFrames.Proofs.Operation
import ScopeFrames.Proofs.Reading

/-!
What the listing of a table tells: equal listings are of tables whose scopes are alike, one by one,
as long as no name holds a line feed and no owner is the dash that stands for none.
-/

namespace ScopeFrames

def Listing.PlainOwner (owner : Option String) : Prop :=
  ∀ name ∈ owner, '\n' ∉ name.toList ∧ name ≠ "-"

structure Scope.Plain (s : Scope) : Prop where
  names : ∀ name ∈ s.names, '\n' ∉ name.toList
  owner : Listing.PlainOwner s.owner

instance (s : Scope) : Decidable s.Plain :=
  decidable_of_iff ((∀ name ∈ s.names, '\n' ∉ name.toList) ∧
      ∀ name ∈ s.owner, '\n' ∉ name.toList ∧ name ≠ "-")
    ⟨fun ⟨names, owner⟩ => ⟨names, owner⟩, fun ⟨names, owner⟩ => ⟨names, owner⟩⟩

structure Scope.Alike (s s' : Scope) : Prop where
  level : s.level = s'.level
  owner : s.owner = s'.owner
  entries : s.entries = s'.entries

namespace Listing

section Marks

variable {c : Char} {a b m x y : String}

theorem append_cons_inj {as bs xs ys : List Char} (ha : c ∉ as) (hb : c ∉ bs)
    (same : as ++ c :: xs = bs ++ c :: ys) : as = bs ∧ xs = ys := by
  induction as generalizing bs with
  | nil =>
    cases bs with
    | nil => exact ⟨rfl, (List.cons.inj same).2⟩
    | cons b bs => exact absurd ((List.cons.inj same).1 ▸ List.mem_cons_self) hb
  | cons a as ih =>
    cases bs with
    | nil => exact absurd ((List.cons.inj same).1 ▸ List.mem_cons_self) ha
    | cons b bs =>
      obtain ⟨rfl, rest⟩ := List.cons.inj same
      obtain ⟨rfl, rfl⟩ :=
        ih (List.not_mem_of_not_mem_cons ha) (List.not_mem_of_not_mem_cons hb) rest
      exact ⟨rfl, rfl⟩

theorem cut (first : m.toList.head? = some c) (ha : c ∉ a.toList) (hb : c ∉ b.toList)
    (same : a ++ (m ++ x) = b ++ (m ++ y)) : a = b ∧ x = y := by
  obtain ⟨ms, mark⟩ := List.head?_eq_some_iff.1 first
  have texts := congrArg String.toList same
  simp only [String.toList_append, mark, List.cons_append] at texts
  obtain ⟨fronts, rests⟩ := append_cons_inj ha hb texts
  exact ⟨String.toList_inj.1 fronts, String.toList_inj.1 (List.append_cancel_left rests)⟩

theorem cut_last (last : m.toList.getLast? = some c) (hx : c ∉ x.toList) (hy : c ∉ y.toList)
    (same : a ++ (m ++ x) = b ++ (m ++ y)) : a = b ∧ x = y := by
  obtain ⟨ms, mark⟩ := List.getLast?_eq_some_iff.1 last
  have texts : x.toList.reverse ++ c :: (ms.reverse ++ a.toList.reverse) =
      y.toList.reverse ++ c :: (ms.reverse ++ b.toList.reverse) := by
    simpa [mark] using congrArg (List.reverse ∘ String.toList) same
  obtain ⟨backs, fronts⟩ :=
    append_cons_inj (mt List.mem_reverse.1 hx) (mt List.mem_reverse.1 hy) texts
  exact ⟨String.toList_inj.1 (List.reverse_inj.1 (List.append_cancel_left fronts)),
    String.toList_inj.1 (List.reverse_inj.1 backs)⟩

theorem join_inj {α : Type} {text : α → String} {P : α → Prop} {R : α → α → Prop}
    (told : ∀ {a b x y}, P a → P b → text a ++ x = text b ++ y → R a b ∧ x = y) {as bs : List α}
    (length : as.length = bs.length) (ha : ∀ a ∈ as, P a) (hb : ∀ b ∈ bs, P b)
    (same : String.join (as.map text) ++ x = String.join (bs.map text) ++ y) :
    List.Forall₂ R as bs ∧ x = y := by
  induction as generalizing bs with
  | nil =>
    obtain rfl := List.length_eq_zero_iff.1 length.symm
    exact ⟨.nil, (String.append_right_inj _).1 same⟩
  | cons a as ih =>
    cases bs with
    | nil => cases length
    | cons b bs =>
      rw [List.map_cons, List.map_cons, String.join_cons, String.join_cons, String.append_assoc,
        String.append_assoc] at same
      obtain ⟨hp, ha⟩ := List.forall_mem_cons.1 ha
      obtain ⟨hp', hb⟩ := List.forall_mem_cons.1 hb
      obtain ⟨first, later⟩ := told hp hp' same
      obtain ⟨rest, behind⟩ := ih (Nat.succ.inj length) ha hb later
      exact ⟨.cons first rest, behind⟩

end Marks

section Values

variable {c : Char}

theorem toString_text (s : String) : toString s = s := rfl

theorem not_mem_natural (other : c.isDigit = false) (n : Nat) : c ∉ (toString n).toList := by
  rw [Json.toList_toString]
  intro member
  rw [Json.isDigit_of_mem_toDigits member] at other
  cases other

theorem natural_injective : Function.Injective (toString : Nat → String) := by
  intro n n' same
  have digits := congrArg (Nat.ofDigitChars 10 ·.toList 0) same
  simpa [Json.toList_toString] using digits

theorem toList_negSucc (n : Nat) :
    (toString (Int.negSucc n)).toList = '-' :: (toString (n + 1)).toList :=
  String.toList_append

theorem not_mem_integer (other : c.isDigit = false) (sign : c ≠ '-') (i : Int) :
    c ∉ (toString i).toList := by
  cases i with
  | ofNat n => exact not_mem_natural other n
  | negSucc n =>
    rw [toList_negSucc]
    exact List.not_mem_cons_of_ne_of_not_mem sign (not_mem_natural other (n + 1))

theorem natural_ne_negSucc (n n' : Nat) : toString n ≠ toString (Int.negSucc n') := by
  intro same
  have sign : '-' ∈ (toString n).toList := by
    rw [same, toList_negSucc]
    exact List.mem_cons_self
  exact not_mem_natural (by decide) n sign

theorem integer_injective : Function.Injective (toString : Int → String) := by
  intro i i' same
  cases i with
  | ofNat n =>
    cases i' with
    | ofNat n' => exact congrArg Int.ofNat (natural_injective same)
    | negSucc n' => exact absurd same (natural_ne_negSucc n n')
  | negSucc n =>
    cases i' with
    | ofNat n' => exact absurd same.symm (natural_ne_negSucc n' n)
    | negSucc n' =>
      have digits := natural_injective ((String.append_right_inj "-").1 same)
      exact congrArg Int.negSucc (Nat.succ.inj digits)

theorem integer_ne_dash (i : Int) : toString i ≠ "-" := by
  intro same
  have text : (toString i).toList = ['-'] := congrArg String.toList same
  cases i with
  | ofNat n => exact not_mem_natural rfl n (text ▸ List.mem_cons_self)
  | negSucc n =>
    rw [toList_negSucc, Json.toList_toString] at text
    exact Nat.toDigits_ne_nil (List.cons.inj text).2

theorem natural_ne_dash (n : Nat) : toString n ≠ "-" := integer_ne_dash (Int.ofNat n)

theorem label_ne_dash (l : Label) : l.text ≠ "-" := by
  intro same
  have text : 'L' :: (toString l.number).toList = ['-'] :=
    String.toList_append.symm.trans (congrArg String.toList same)
  exact absurd (List.cons.inj text).1 (by decide)

theorem dash_inj {o o' : Option String} (marked : "-" ∉ o) (marked' : "-" ∉ o')
    (same : dash o = dash o') : o = o' := by
  cases o with
  | none =>
    cases o' with
    | none => rfl
    | some s' => exact absurd (congrArg some same.symm) marked'
  | some s =>
    cases o' with
    | none => exact absurd (congrArg some same) marked
    | some s' => exact congrArg some same

theorem dash_map_injective {α : Type} {text : α → String} (injective : Function.Injective text)
    (marked : ∀ a, text a ≠ "-") : Function.Injective fun o : Option α => dash (o.map text) := by
  have unmarked (o : Option α) : "-" ∉ o.map text := by
    intro member
    obtain ⟨a, -, same⟩ := Option.map_eq_some_iff.1 member
    exact marked a same
  intro o o' same
  exact Option.map_injective injective (dash_inj (unmarked o) (unmarked o') same)

theorem word_injective : Function.Injective Word.text :=
  fun _ _ same => Int64.toInt_inj.1 (integer_injective same)

theorem label_injective : Function.Injective Label.text := by
  rintro ⟨n⟩ ⟨n'⟩ same
  exact congrArg Label.mk (natural_injective ((String.append_right_inj "L").1 same))

theorem find?_text (c : Category) : Category.all.find? (·.text = c.text) = some c := by
  cases c <;> decide

theorem category_injective : Function.Injective Category.text := by
  intro c c' same
  have found := find?_text c
  rw [same, find?_text c'] at found
  exact (Option.some.inj found).symm

theorem bounds_eq {b b' : Option Bounds} (start : b.map (·.start) = b'.map (·.start))
    (stop : b.map (·.stop) = b'.map (·.stop)) : b = b' := by
  cases b with
  | none => cases b' <;> simp_all
  | some b =>
    cases b' with
    | none => cases start
    | some b' =>
      cases b
      cases b'
      simp_all

end Values

section Cells

def Tame (s : String) : Prop := '\n' ∉ s.toList ∧ '|' ∉ s.toList

instance (s : String) : Decidable (Tame s) :=
  inferInstanceAs (Decidable ('\n' ∉ s.toList ∧ '|' ∉ s.toList))

theorem Tame.append {s s' : String} (tame : Tame s) (tame' : Tame s') : Tame (s ++ s') := by
  simp only [Tame, String.toList_append, List.mem_append, not_or]
  exact ⟨⟨tame.1, tame'.1⟩, tame.2, tame'.2⟩

theorem tame_natural (n : Nat) : Tame (toString n) := ⟨not_mem_natural rfl n, not_mem_natural rfl n⟩

theorem tame_integer (i : Int) : Tame (toString i) :=
  ⟨not_mem_integer rfl (by decide) i, not_mem_integer rfl (by decide) i⟩

theorem tame_word (w : Int64) : Tame (Word.text w) := tame_integer w.toInt

theorem tame_label (l : Label) : Tame l.text := by
  rw [Label.text, toString_text]
  exact (by decide : Tame "L").append (tame_natural l.number)

theorem tame_category (c : Category) : Tame c.text := by
  cases c <;> decide

theorem tame_dash {α : Type} {text : α → String} (tame : ∀ a, Tame (text a)) (o : Option α) :
    Tame (dash (o.map text)) := by
  cases o with
  | none => exact (by decide : Tame "-")
  | some a => exact tame a

def cell (field : String × String) : String := s!"{field.1}: {field.2}"

theorem cell_inj {key value value' : String} :
    cell (key, value) = cell (key, value') ↔ value = value' :=
  String.append_right_inj _

theorem tame_fields (e : Entry) : ∀ field ∈ e.fields, Tame field.1 ∧ Tame field.2 := by
  have bound (side : Bounds → Int64) : Tame (dash (e.bounds.map (Word.text <| side ·))) :=
    tame_dash (fun b => tame_word (side b)) e.bounds
  have type : Tame s!"{e.category.text} ({e.category.number})" := by
    simp only [toString_text]
    exact ((tame_category e.category).append (by decide : Tame " (")).append
      (tame_integer e.category.number) |>.append (by decide : Tame ")")
  simp only [Entry.fields, List.forall_mem_cons]
  exact ⟨⟨by decide, type⟩, ⟨by decide, bound _⟩, ⟨by decide, bound _⟩,
    ⟨by decide, tame_dash tame_category _⟩, ⟨by decide, tame_dash tame_word _⟩,
    ⟨by decide, tame_dash tame_label _⟩, ⟨by decide, tame_dash tame_natural _⟩,
    ⟨by decide, tame_dash tame_word _⟩, List.forall_mem_nil _⟩

theorem tame_cells (e : Entry) : ∀ text ∈ e.fields.map cell, Tame text := by
  intro text member
  obtain ⟨field, among, rfl⟩ := List.mem_map.1 member
  obtain ⟨key, value⟩ := tame_fields e field among
  exact (key.append (by decide : Tame ": ")).append value

theorem not_mem_intercalate {texts : List String} (tame : ∀ text ∈ texts, Tame text) :
    '\n' ∉ (" | ".intercalate texts).toList := by
  induction texts with
  | nil => decide
  | cons text texts ih =>
    obtain ⟨first, rest⟩ := List.forall_mem_cons.1 tame
    cases texts with
    | nil => simpa using first.1
    | cons next texts =>
      have mark : '\n' ∉ " | ".toList := by decide
      rw [String.intercalate_cons_cons, String.toList_append, String.toList_append,
        List.mem_append, List.mem_append, not_or, not_or]
      exact ⟨⟨first.1, mark⟩, ih rest⟩

theorem intercalate_inj {texts texts' : List String} (length : texts.length = texts'.length)
    (tame : ∀ text ∈ texts, Tame text) (tame' : ∀ text ∈ texts', Tame text)
    (same : " | ".intercalate texts = " | ".intercalate texts') : texts = texts' := by
  induction texts generalizing texts' with
  | nil => exact (List.length_eq_zero_iff.1 length.symm).symm
  | cons text texts ih =>
    cases texts' with
    | nil => cases length
    | cons text' texts' =>
      obtain ⟨first, rest⟩ := List.forall_mem_cons.1 tame
      obtain ⟨first', rest'⟩ := List.forall_mem_cons.1 tame'
      cases texts with
      | nil =>
        obtain rfl := List.length_eq_zero_iff.1 (Nat.succ.inj length).symm
        simpa using same
      | cons next texts =>
        cases texts' with
        | nil => cases length
        | cons next' texts' =>
          have bar (a x : String) : a ++ " | " ++ x = a ++ " " ++ ("| " ++ x) := by
            simp only [String.append_assoc]
            rfl
          rw [String.intercalate_cons_cons, String.intercalate_cons_cons, bar, bar] at same
          obtain ⟨front, back⟩ := cut (c := '|') rfl (first.append (by decide : Tame " ")).2
            (first'.append (by decide : Tame " ")).2 same
          rw [(String.append_left_inj " ").1 front, ih (Nat.succ.inj length) rest rest' back]

theorem entry_eq_of_fields {e e' : Entry} (name : e.name = e'.name)
    (same : e.fields.map cell = e'.fields.map cell) : e = e' := by
  simp only [Entry.fields, List.map_cons, List.map_nil, List.cons.injEq, cell_inj, and_true] at same
  obtain ⟨type, start, stop, base, offset, label, level, frame⟩ := same
  have word := dash_map_injective word_injective fun w => integer_ne_dash w.toInt
  have bound {side : Bounds → Int64} (shown : dash (e.bounds.map (Word.text <| side ·)) =
      dash (e'.bounds.map (Word.text <| side ·))) : e.bounds.map side = e'.bounds.map side :=
    word (by simpa only [Option.map_map, Function.comp_def] using shown)
  have category_ne_dash (c : Category) : c.text ≠ "-" := by cases c <;> decide
  have free (c : Category) : ' ' ∉ c.text.toList := by cases c <;> decide
  have category : e.category = e'.category := by
    simp only [String.append_assoc] at type
    exact category_injective (cut (c := ' ') rfl (free _) (free _) type).1
  obtain ⟨_, _, _, _, _, _, _, _⟩ := e
  obtain ⟨_, _, _, _, _, _, _, _⟩ := e'
  rw [Entry.mk.injEq]
  exact ⟨name, category, dash_map_injective category_injective category_ne_dash base,
    bounds_eq (bound start) (bound stop), word offset,
    dash_map_injective label_injective label_ne_dash label,
    dash_map_injective natural_injective natural_ne_dash level, word frame⟩

end Cells

section Lines

variable {e e' : Entry} {x y : String}

def lines (e : Entry) : String := s!"  {e.listing}\n"

theorem lines_append (e : Entry) (x : String) : lines e ++ x = "  " ++ ("Symbol: " ++
    (e.name ++ ("\n    " ++ (" | ".intercalate (e.fields.map cell) ++ ("\n" ++ x))))) := by
  simp only [lines, Entry.listing, toString_text, String.append_assoc]
  rfl

theorem lines_inj (plain : '\n' ∉ e.name.toList) (plain' : '\n' ∉ e'.name.toList)
    (same : lines e ++ x = lines e' ++ y) : e = e' ∧ x = y := by
  rw [lines_append, lines_append, String.append_right_inj, String.append_right_inj] at same
  -- Both lines of an entry end at a line feed, and the second has as many cells for every entry.
  obtain ⟨name, cells⟩ := cut (c := '\n') rfl plain plain' same
  obtain ⟨cells, rest⟩ := cut (c := '\n') rfl (not_mem_intercalate (tame_cells e))
    (not_mem_intercalate (tame_cells e')) cells
  exact ⟨entry_eq_of_fields name (intercalate_inj rfl (tame_cells e) (tame_cells e') cells), rest⟩

theorem entries_inj {es es' : List Entry} (length : es.length = es'.length)
    (plain : ∀ e ∈ es, '\n' ∉ e.name.toList) (plain' : ∀ e ∈ es', '\n' ∉ e.name.toList)
    (same : entries es ++ x = entries es' ++ y) : es = es' ∧ x = y := by
  obtain ⟨alike, rest⟩ := join_inj lines_inj length plain plain' same
  exact ⟨List.forall₂_eq_eq_eq ▸ alike, rest⟩

theorem header_append (level : Nat) (owner : Option String) (size : Nat) (x : String) :
    header level owner size none ++ x = "Scope level " ++ (toString level ++ (" (owner: " ++
      (dash owner ++ (", entries: " ++ toString size) ++ ")" ++ ("\n" ++ x)))) := by
  have close : ")\n" = ")" ++ "\n" := by decide
  unfold header
  simp only [toString_text, String.append_empty, String.append_assoc]
  rw [close, String.append_assoc]

theorem PlainOwner.not_mem {owner : Option String} (plain : PlainOwner owner) (size : Nat) :
    '\n' ∉ (dash owner ++ (", entries: " ++ toString size) ++ ")").toList := by
  have short : '\n' ∉ (dash owner).toList := by
    cases owner with
    | none => decide
    | some name => exact (plain name rfl).1
  have mark : '\n' ∉ ", entries: ".toList := by decide
  have close : '\n' ∉ ")".toList := by decide
  have digits := not_mem_natural (c := '\n') rfl size
  simp only [String.toList_append, List.mem_append, not_or]
  exact ⟨⟨short, mark, digits⟩, close⟩

/-- The owner may hold whatever stands behind owners: the size is what follows the last blank. -/
theorem header_inj {level level' size size' : Nat} {owner owner' : Option String}
    (plain : PlainOwner owner) (plain' : PlainOwner owner')
    (same : header level owner size none ++ x = header level' owner' size' none ++ y) :
    level = level' ∧ owner = owner' ∧ size = size' ∧ x = y := by
  have blank (n : Nat) : ' ' ∉ (toString n).toList := not_mem_natural rfl n
  rw [header_append, header_append, String.append_right_inj] at same
  obtain ⟨level, line⟩ := cut rfl (blank _) (blank _) same
  obtain ⟨line, rest⟩ := cut rfl (plain.not_mem size) (plain'.not_mem size') line
  obtain ⟨owner, size⟩ := cut_last rfl (blank _) (blank _) ((String.append_left_inj ")").1 line)
  exact ⟨natural_injective level, dash_inj (fun member => (plain _ member).2 rfl)
    (fun member => (plain' _ member).2 rfl) owner, natural_injective size, rest⟩

end Lines

end Listing

theorem Scope.listing_inj {s s' : Scope} {x y : String} (plain : s.Plain) (plain' : s'.Plain)
    (same : s.listing ++ x = s'.listing ++ y) : s.Alike s' ∧ x = y := by
  have named {s : Scope} (plain : s.Plain) : ∀ e ∈ s.entries.toList, '\n' ∉ e.name.toList :=
    fun e member => plain.names e.name (List.mem_map_of_mem member)
  simp only [Scope.listing, String.append_assoc] at same
  obtain ⟨level, owner, size, same⟩ := Listing.header_inj plain.owner plain'.owner same
  obtain ⟨entries, rest⟩ := Listing.entries_inj size (named plain) (named plain') same
  exact ⟨⟨level, owner, Array.toList_inj.1 entries⟩, rest⟩

namespace Table

variable [Limits]

def counted (t : Table) : String :=
  toString t.entryCount ++ (" " ++ if t.entryCount = 1 then "entry" else "entries")

theorem not_mem_counted (t : Table) : '\n' ∉ t.counted.toList := by
  have noun : '\n' ∉ (" " ++ if t.entryCount = 1 then "entry" else "entries").toList := by
    split <;> decide
  rw [counted, String.toList_append, List.mem_append, not_or]
  exact ⟨Listing.not_mem_natural rfl _, noun⟩

theorem listing_eq (t : Table) :
    t.listing = "Symbol table: " ++ (toString t.depth ++ (" scope(s), " ++ (t.counted ++
      ("\n" ++ String.join (t.outermostFirst.map Scope.listing))))) := by
  unfold listing counted
  simp only [Listing.toString_text, String.append_assoc]

/-- A listing tells how many scopes are live and, of each scope, the level, the owner and every
field of every entry, whatever the names are that stand in it. -/
theorem alike_of_listing_eq {t t' : Table} (plain : ∀ s ∈ t.scopes, s.Plain)
    (plain' : ∀ s ∈ t'.scopes, s.Plain) (same : t.listing = t'.listing) :
    t.depth = t'.depth ∧ List.Forall₂ Scope.Alike t.outermostFirst t'.outermostFirst := by
  rw [listing_eq, listing_eq, String.append_right_inj] at same
  obtain ⟨depth, same⟩ := Listing.cut rfl (Listing.not_mem_natural rfl _)
    (Listing.not_mem_natural rfl _) same
  obtain ⟨-, scopes⟩ := Listing.cut rfl t.not_mem_counted t'.not_mem_counted same
  have deep : t.depth = t'.depth := Listing.natural_injective depth
  have length : t.outermostFirst.length = t'.outermostFirst.length := by
    rwa [outermostFirst, outermostFirst, List.length_reverse, List.length_reverse]
  exact ⟨deep, (Listing.join_inj Scope.listing_inj length
    (fun s member => plain s (List.mem_reverse.1 member))
    (fun s member => plain' s (List.mem_reverse.1 member)) (congrArg (· ++ "") scopes)).1⟩

end Table

namespace Table

def listingLikeNames : List Operation :=
  [ .declare (.procedure "p, entries: 7)"), .enterProcedure "p, entries: 7)",
    .declare (.array "a | Label: L1" .int (some ⟨-5, 9, by decide⟩)),
    .declare (.simple "Symbol: -" .notApplicable) ]

theorem listingLikeNames_alike :
    let t := ({} : Table).after (.enter :: listingLikeNames)
    let t' := ({ policy := { baseOffset := 4 } } : Table).after
      (.enter :: .enter :: .abandon :: listingLikeNames)
    (∀ s ∈ t.scopes, s.Plain) ∧ (∀ s ∈ t'.scopes, s.Plain) ∧ t.listing = t'.listing ∧ t ≠ t' ∧
      t.depth = t'.depth ∧ List.Forall₂ Scope.Alike t.outermostFirst t'.outermostFirst := by
  intro t t'
  have plain : ∀ s ∈ t.scopes, s.Plain := by decide +kernel
  have plain' : ∀ s ∈ t'.scopes, s.Plain := by decide +kernel
  have same : t.listing = t'.listing := by decide +kernel
  exact ⟨plain, plain', same, by decide +kernel, alike_of_listing_eq plain plain' same⟩

end Table

end ScopeFrames
