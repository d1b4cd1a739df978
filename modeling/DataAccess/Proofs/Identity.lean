import DataAccess.Descriptor
import DataAccess.Proofs.Outcome
import DataAccess.Proofs.Text.Form
import Mathlib.Tactic.SplitIfs

/-!
The identity of a connection is a url of it, with nothing in it that is the connection's own affair.
So two urls have one identity exactly where they name the same place with the same options.
-/
namespace DataAccess

/-- A url as it is written. -/
structure Url where
  scheme : List Char
  location : List Char
  query : Option (List Char)
  named : scheme ≠ []
  plain : ∀ c ∈ scheme, Descriptor.isSchemeChar c = true
  located : location ≠ []
  unmarked : '?' ∉ location

namespace Descriptor

/-- Options that are the connection's own affair. -/
def isSetting (option : String × String) : Bool :=
  option.1 = "pool_max_idle" || option.1 = "busy_timeout_ms"

/-- The same with the settings that hold where there are no others. -/
def standard (d : Descriptor) : Descriptor :=
  { d with maxIdle := defaultMaxIdle, busyTimeout := defaultBusyTimeout }

end Descriptor

namespace Url

open Descriptor

def tail : Option (List Char) → List Char
  | none => []
  | some query => '?' :: query

def text (u : Url) : String :=
  String.ofList (u.scheme ++ ("://".toList ++ (u.location ++ tail u.query)))

def lowered (u : Url) : List Char := u.scheme.map Char.toLower

/-- All options after their decoding. -/
def options (u : Url) : List (String × String) := Form.pairs (u.query.getD [])

def others (u : Url) : List (String × String) := u.options.filter (!isSetting ·)

theorem colon_notMem (u : Url) : ':' ∉ u.scheme :=
  fun h => absurd (u.plain ':' h) (by decide)

theorem cut_tail {location : List Char} (unmarked : '?' ∉ location) (query : Option (List Char)) :
    Form.splitAt? ['?'] (location ++ tail query) = query.map fun q => (location, q) := by
  cases query with
  | none =>
    rw [tail, List.append_nil]
    exact Form.splitAt?_eq_none.mpr unmarked
  | some query => exact Form.splitAt?_append unmarked [] query

theorem cut_text (u : Url) : Form.splitAt? "://".toList u.text.toList =
    some (u.scheme, u.location ++ tail u.query) := by
  rw [text]
  refine (congrArg _ String.toList_ofList).trans ?_
  exact Form.splitAt?_append u.colon_notMem ['/', '/'] _

/-- What a url is read as before its options. -/
def bare (u : Url) : Descriptor :=
  ⟨String.ofList u.lowered, String.ofList u.location, [], defaultMaxIdle, defaultBusyTimeout⟩

theorem ofUrl_text (u : Url) :
    ofUrl u.text = u.options.foldlM (withOption (.invalidUrl u.text)) u.bare := by
  have named : u.scheme.isEmpty = false := by simpa using u.named
  have plain : u.scheme.all isSchemeChar = true := List.all_eq_true.mpr u.plain
  have located : u.location.isEmpty = false := by simpa using u.located
  have parts : (Form.splitAt? ['?'] (u.location ++ tail u.query)).getD
      (u.location ++ tail u.query, []) = (u.location, u.query.getD []) := by
    rw [cut_tail u.unmarked]
    cases u.query <;> simp [tail]
  simp only [ofUrl, u.cut_text, parts, named, plain, located, Bool.not_true, Bool.or_false,
    Bool.false_eq_true, if_false]
  rfl

/-- A text is that of one url at most. -/
theorem text_injective {u v : Url} (same : u.text = v.text) : u = v := by
  have cut := u.cut_text
  rw [same, v.cut_text] at cut
  obtain ⟨scheme, rest⟩ := Prod.mk.inj (Option.some.inj cut)
  have cut' := cut_tail u.unmarked u.query
  rw [← rest, cut_tail v.unmarked] at cut'
  obtain ⟨us, ul, uq, _, _, _, _⟩ := u
  obtain ⟨vs, vl, vq, _, _, _, _⟩ := v
  obtain rfl : us = vs := scheme.symm
  cases uq with
  | none =>
    obtain rfl : vq = none := by simpa using cut'
    obtain rfl : vl = ul := by simpa [tail] using rest
    rfl
  | some q =>
    obtain ⟨q', rfl, same⟩ := Option.map_eq_some_iff.mp cut'
    obtain ⟨rfl, rfl⟩ := Prod.mk.inj same
    rfl

end Url

namespace Descriptor

variable {invalid : String → Failure} {d e : Descriptor} {options : List (String × String)}

theorem withOption_eq_ok {option : String × String} (h : withOption invalid d option = .ok e) :
    e.scheme = d.scheme ∧ e.location = d.location ∧
      e.options = d.options ++ [option].filter (!isSetting ·) := by
  unfold withOption at h
  split_ifs at h with idle timeout
  · split at h
    · obtain rfl := Except.ok.inj h
      simp [isSetting, idle]
    · cases h
  · split at h
    · obtain rfl := Except.ok.inj h
      simp [isSetting, timeout]
    · cases h
  · obtain rfl := Except.ok.inj h
    simp [isSetting, idle, timeout]

theorem withOption_other {option : String × String} (h : isSetting option = false) :
    withOption invalid d option = .ok { d with options := d.options ++ [option] } := by
  obtain ⟨idle, timeout⟩ : option.1 ≠ "pool_max_idle" ∧ option.1 ≠ "busy_timeout_ms" := by
    simpa [isSetting] using h
  rw [withOption, if_neg idle, if_neg timeout]

/-- Settings leave no trace but in the settings. -/
theorem withOptions_eq_ok (h : options.foldlM (withOption invalid) d = .ok e) :
    e.scheme = d.scheme ∧ e.location = d.location ∧
      e.options = d.options ++ options.filter (!isSetting ·) := by
  induction options generalizing d with
  | nil =>
    obtain rfl := Except.ok.inj h
    simp
  | cons option options ih =>
    rw [List.foldlM_cons, Outcome.bind_eq_ok] at h
    obtain ⟨next, first, others⟩ := h
    obtain ⟨scheme, location, added⟩ := withOption_eq_ok first
    obtain ⟨scheme', location', added'⟩ := ih others
    refine ⟨scheme'.trans scheme, location'.trans location, ?_⟩
    rw [added', added, List.append_assoc, ← List.filter_append, List.singleton_append]

theorem withOptions_others (h : ∀ option ∈ options, isSetting option = false) :
    options.foldlM (withOption invalid) d = .ok { d with options := d.options ++ options } := by
  induction options generalizing d with
  | nil => simp
  | cons option options ih =>
    obtain ⟨first, others⟩ := List.forall_mem_cons.mp h
    rw [List.foldlM_cons, withOption_other first]
    exact (ih others).trans (by simp)

/-- A url that is accepted has a scheme and a location. -/
theorem exists_url {url : String} (h : ofUrl url = .ok d) : ∃ u : Url, u.text = url := by
  unfold ofUrl at h
  split at h
  · cases h
  · rename_i scheme rest cut
    split_ifs at h with refused
    obtain ⟨named, plain⟩ : scheme ≠ [] ∧ ∀ c ∈ scheme, isSchemeChar c = true := by
      simpa using refused
    have whole := Form.splitAt?_eq_some cut
    cases asked : Form.splitAt? ['?'] rest with
    | none =>
      simp only [asked, Option.getD_none] at h
      split_ifs at h with empty
      refine ⟨⟨scheme, rest, none, named, plain, by simpa using empty,
        Form.splitAt?_eq_none.mp asked⟩, ?_⟩
      rw [Url.text, Url.tail, List.append_nil, ← whole, String.ofList_toList]
    | some parts =>
      obtain ⟨location, query⟩ := parts
      simp only [asked, Option.getD_some] at h
      split_ifs at h with empty
      refine ⟨⟨scheme, location, some query, named, plain, by simpa using empty,
        Form.notMem_of_splitAt? asked⟩, ?_⟩
      have behind : location ++ '?' :: query = rest := (Form.splitAt?_eq_some asked).symm
      rw [Url.text, Url.tail, behind, ← whole, String.ofList_toList]

theorem lower_schemeChar {c : Char} (h : isSchemeChar c = true) :
    isSchemeChar c.toLower = true ∧ c.toLower.toLower = c.toLower := by
  by_cases upper : c.val ≥ 'A'.val ∧ c.val ≤ 'Z'.val
  · have each : ∀ n < 26, isSchemeChar (Char.ofNat (n + 65)).toLower = true ∧
        (Char.ofNat (n + 65)).toLower.toLower = (Char.ofNat (n + 65)).toLower := by decide
    have low : 65 ≤ c.toNat := upper.1
    have high : c.toNat ≤ 90 := upper.2
    have letter := each (c.toNat - 65) (by omega)
    rwa [Nat.sub_add_cancel low, Char.ofNat_toNat] at letter
  · have same : c.toLower = c := dif_neg upper
    rw [same]
    exact ⟨h, same⟩

end Descriptor

namespace Url

open Descriptor

/-- The url that a connection of this one is known by. -/
def standing (u : Url) (d : Descriptor) : Url where
  scheme := u.lowered
  location := u.location
  query := if d.options.isEmpty then none else some d.optionText.toList
  named := by simpa [lowered] using u.named
  plain := by simpa [lowered] using fun c hc => (lower_schemeChar (u.plain c hc)).1
  located := u.located
  unmarked := u.unmarked

variable {u v : Url} {d e : Descriptor}

/-- A url that is accepted is read as what it says. -/
theorem read_eq (h : ofUrl u.text = .ok d) : d.scheme = String.ofList u.lowered ∧
    d.location = String.ofList u.location ∧ d.options = u.others := by
  rw [ofUrl_text] at h
  exact withOptions_eq_ok h

theorem text_standing (h : ofUrl u.text = .ok d) : (u.standing d).text = d.identity := by
  obtain ⟨scheme, location, -⟩ := read_eq h
  refine String.toList_inj.mp ?_
  rw [identity, scheme, location, text, standing]
  cases d.options.isEmpty <;> simp [tail]

/-- The identity of an accepted url is accepted, with the same options and no setting. -/
theorem ofUrl_identity (h : ofUrl u.text = .ok d) : ofUrl d.identity = .ok d.standard := by
  obtain ⟨scheme, location, others⟩ := read_eq h
  have known : (u.standing d).options = d.options := by
    rw [options, standing]
    split
    · rename_i none
      rw [List.isEmpty_iff.mp none]
      rfl
    · exact Form.pairs_ofPairs d.options
  have lowered : (u.standing d).lowered = u.lowered := by
    simp only [Url.lowered, standing, List.map_map]
    exact List.map_congr_left fun c hc => (lower_schemeChar (u.plain c hc)).2
  have free : ∀ option ∈ d.options, isSetting option = false := by
    rw [others]
    intro option ho
    simpa using (List.mem_filter.mp ho).2
  rw [← text_standing h, ofUrl_text, known, withOptions_others free, bare, lowered]
  simp only [standard, scheme, location, List.nil_append]
  rfl

end Url

namespace Descriptor

/-- The identity of an accepted url is accepted: it is a url of the same place with the same options
and without settings, and its own identity. Every accepted url is written in one way, and two of
them have one identity exactly where their schemes are the same but for capitals, and their
locations and their options, in order and apart from settings, are the same. -/
theorem identity_normal :
    (∀ url d, ofUrl url = .ok d → ofUrl d.identity = .ok d.standard ∧
      d.standard.identity = d.identity ∧ ∃! u : Url, u.text = url) ∧
    ∀ (u v : Url) d e, ofUrl u.text = .ok d → ofUrl v.text = .ok e →
      (d.identity = e.identity ↔
        u.lowered = v.lowered ∧ u.location = v.location ∧ u.others = v.others) := by
  constructor
  · intro url d accepted
    obtain ⟨u, rfl⟩ := exists_url accepted
    exact ⟨Url.ofUrl_identity accepted, rfl, u, rfl, fun v same => Url.text_injective same⟩
  · intro u v d e hd he
    obtain ⟨scheme, location, others⟩ := Url.read_eq hd
    obtain ⟨scheme', location', others'⟩ := Url.read_eq he
    constructor
    · intro same
      have read := Url.ofUrl_identity hd
      rw [same, Url.ofUrl_identity he] at read
      have fields := Except.ok.inj read
      have named := congrArg Descriptor.scheme fields
      have placed := congrArg Descriptor.location fields
      have asked := congrArg Descriptor.options fields
      simp only [standard, scheme, scheme'] at named
      simp only [standard, location, location'] at placed
      simp only [standard, others, others'] at asked
      exact ⟨String.ofList_injective named.symm, String.ofList_injective placed.symm, asked.symm⟩
    · intro ⟨hs, hl, ho⟩
      rw [identity, identity, optionText, optionText, scheme, location, others, scheme', location',
        others', hs, hl, ho]

section Shop

/-- A scheme in capitals, a setting between the options, a plus and a space. -/
def loud : Url where
  scheme := "SQLite".toList
  location := "data/shop".toList
  query := some "mode=rwc&pool_max_idle=9&q=a%2Bb+c&&flag".toList
  named := by decide
  plain := List.all_eq_true.mp (by decide)
  located := by decide
  unmarked := by decide

/-- Another setting in front, and the same options in another spelling. -/
def quiet : Url where
  scheme := "sqlite".toList
  location := "data/shop".toList
  query := some "busy_timeout_ms=250&mode=r%77c&q=a%2bb%20c&flag=".toList
  named := by decide
  plain := List.all_eq_true.mp (by decide)
  located := by decide
  unmarked := by decide

def shopOptions : List (String × String) := [("mode", "rwc"), ("q", "a+b c"), ("flag", "")]

theorem identity_normal_shop : ∃ d e, ofUrl loud.text = .ok d ∧ ofUrl quiet.text = .ok e ∧
    ofUrl d.identity = .ok d.standard ∧ d.identity = e.identity ∧ d ≠ e := by
  have read : ofUrl loud.text = .ok ⟨"sqlite", "data/shop", shopOptions, 9, 5000⟩ :=
    Outcome.eq_ok_of_toOption (by decide +kernel)
  have read' : ofUrl quiet.text = .ok ⟨"sqlite", "data/shop", shopOptions, 4, 250⟩ :=
    Outcome.eq_ok_of_toOption (by decide +kernel)
  have same := (identity_normal.2 loud quiet _ _ read read').mpr (by decide +kernel)
  exact ⟨_, _, read, read', (identity_normal.1 _ _ read).1, same, by decide⟩

end Shop

end Descriptor
end DataAccess
