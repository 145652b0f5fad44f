import WebFort.Library.JsonPrint
import WebFort.Library.Record
import Mathlib.Data.List.Induction

namespace WebFort

open Library

-- The settings of a page, in params.js. Strings are lists of UTF-16 code
-- units; members that are undefined are left out. The values in config.js are
-- taken to be strings and booleans, as in the one that is shipped.
namespace Params

abbrev Text := List UInt16

inductive Setting
  | bool (b : Bool)
  | str (units : Text)
  deriving DecidableEq

abbrev Settings := Record Text Setting

def word (s : String) : Text := s.toList.map fun c => UInt16.ofNat c.toNat

def truthy : Option Setting → Bool
  | none => false
  | some (.bool b) => b
  | some (.str units) => units ≠ []

-- result[key] = val. What is no object does not become a prototype.
def assign (result : Settings) (member : Text × Setting) : Settings :=
  if member.1 = word "__proto__" then result else result.set member.1 member.2

def decodeURIComponent (s : Text) : Option Text :=
  (Percent.decode (s.map UInt16.toNat)).map fun units => units.map UInt16.ofNat

-- key.replace('-', '_')
def replaceDash : Text → Text
  | [] => []
  | c :: cs => if c = 45 then 95 :: cs else c :: replaceDash cs

def Setting.ofText (val : Text) : Setting :=
  if val = word "false" then .bool false else .str val

-- Without a value it is true, which decodeURIComponent makes a string.
def readPart (part : Text) : Option (Text × Setting) :=
  let item := part.splitOn 61
  let key := replaceDash (item.headD [])
  (decodeURIComponent (item[1]?.getD (word "true"))).map fun val => (key, Setting.ofText val)

-- None is the URIError.
def getJsonFromUrl (search : Text) : Option Settings :=
  (search.drop 1).splitOn 38 |>.foldlM
    (fun result part => (readPart part).map (assign result)) Record.empty

-- The array index that a property name is written as, if any. JavaScript
-- enumerates these before the other properties.
def arrayIndex (key : Text) : Option Nat :=
  let n := key.foldl (fun n u => 10 * n + (u.toNat - 48)) 0
  if key = (Nat.toDigits 10 n).map (fun c => UInt16.ofNat c.toNat) ∧ n < 2 ^ 32 - 1 then some n
  else none

def merge (objs : List Settings) : Settings :=
  objs.foldl (fun result obj => (obj.inOrder arrayIndex).foldl assign result) Record.empty

def Setting.toScalar : Setting → JsonText.Scalar
  | .bool b => .bool b
  | .str units => .str (units.map UInt16.toNat)

def Setting.ofScalar : JsonText.Scalar → Setting
  | .bool b => .bool b
  | .str units => .str (units.map UInt16.ofNat)

-- JSON.stringify
def stringify (obj : Settings) : List Nat :=
  JsonText.printObject
    ((obj.inOrder arrayIndex).map fun m => (m.1.map UInt16.toNat, m.2.toScalar))

def ofMember (m : JsonText.Member) : Option (Text × Setting) :=
  (JsonText.Scalar.ofValue m.2).map fun v => (m.1.map UInt16.ofNat, Setting.ofScalar v)

-- JSON.parse of what localStorage has. Nobody else writes there, so it is an
-- object of strings and booleans; none also where it is something else.
def parse (text : List Nat) : Option Settings :=
  match JsonText.parse text with
  | some (.obj ms) => (ms.mapM ofMember).map fun ms =>
      ms.foldl (fun obj m => obj.set m.1 m.2) Record.empty
  | _ => none

def paramsStored : Option (List Nat) → Option Settings
  | none => some Record.empty
  | some [] => some Record.empty
  | some text => parse text

-- A page that is loaded: its config.js and its query string.
structure Visit where
  config : Settings
  search : Text

-- The first call of getParams on a page: the settings and what is stored
-- behind it. None where an exception leaves it.
def getParams (stored : Option (List Nat)) (v : Visit) : Option (Settings × Option (List Nat)) :=
  (paramsStored stored).bind fun paramsStored =>
    (getJsonFromUrl v.search).map fun paramsUrl =>
      let params := merge [v.config, paramsStored, paramsUrl]
      if truthy (params.lookup (word "store")) then
        let params := params.erase (word "store")
        (params, some (stringify params))
      else (params, stored)

-- What a browser has stored after some visits.
def browse (stored : Option (List Nat)) (vs : List Visit) : Option (List Nat) :=
  vs.foldl (fun stored v => ((getParams stored v).map Prod.snd).getD stored) stored

section Objects

theorem lookup_assign {j : Text} (hj : j ≠ word "__proto__") (result : Settings)
    (m : Text × Setting) :
    (assign result m).lookup j = if m.1 = j then some m.2 else result.lookup j := by
  unfold assign
  split
  case isTrue h => rw [if_neg fun hm => hj (hm.symm.trans h)]
  case isFalse => exact result.lookup_set m.1 j m.2

theorem lookup_merge {j : Text} (hj : j ≠ word "__proto__") (objs : List Settings) :
    (merge objs).lookup j = objs.reverse.findSome? fun obj => obj.lookup j := by
  unfold merge
  rw [Record.lookup_layers (lookup_assign hj) arrayIndex, Record.lookup_empty, Option.or_none]

theorem ofNat_toNat (us : Text) : (us.map UInt16.toNat).map UInt16.ofNat = us := by
  rw [List.map_map]
  exact (List.map_congr_left fun u _ => UInt16.ofNat_toNat).trans (List.map_id us)

theorem ofMember_stringified (m : Text × Setting) :
    ofMember (JsonText.FlatMember.toMember (m.1.map UInt16.toNat, m.2.toScalar)) = some m := by
  obtain ⟨key, v⟩ := m
  simp only [ofMember, JsonText.FlatMember.toMember, JsonText.Scalar.ofValue_toValue,
    Option.map_some, ofNat_toNat]
  cases v with
  | bool b => rfl
  | str units => simp only [Setting.toScalar, Setting.ofScalar, ofNat_toNat]

theorem isText_stringified (m : Text × Setting) :
    JsonText.IsText (m.1.map UInt16.toNat, m.2.toScalar) := by
  have hunits : ∀ us : Text, ∀ c ∈ us.map UInt16.toNat, c < 0x10000 := by
    intro us c hc
    obtain ⟨u, -, rfl⟩ := List.mem_map.mp hc
    exact u.toNat_lt
  refine ⟨hunits m.1, ?_⟩
  cases m.2 with
  | bool b => exact trivial
  | str units => exact hunits units

-- What is stored is read back.
theorem lookup_parse_stringify (obj : Settings) :
    ∃ back, parse (stringify obj) = some back ∧ ∀ j, back.lookup j = obj.lookup j := by
  let entries := obj.inOrder arrayIndex
  have hparse : JsonText.parse (stringify obj) = some (.obj (entries.map fun m =>
      JsonText.FlatMember.toMember (m.1.map UInt16.toNat, m.2.toScalar))) := by
    refine (JsonText.parse_printObject _ fun m hm => ?_).trans (by rw [List.map_map]; rfl)
    obtain ⟨e, -, rfl⟩ := List.mem_map.mp hm
    exact isText_stringified e
  have hmembers : (entries.map fun m =>
      JsonText.FlatMember.toMember (m.1.map UInt16.toNat, m.2.toScalar)).mapM ofMember =
        some entries := by
    induction entries with
    | nil => rfl
    | cons m ms ih =>
        rw [List.map_cons, List.mapM_cons, ofMember_stringified, ih]
        rfl
  refine ⟨entries.foldl (fun r e => r.set e.1 e.2) Record.empty, ?_, fun j => ?_⟩
  · unfold parse
    rw [hparse]
    simp only [hmembers, Option.map_some]
  · rw [Record.lookup_foldl (fun r e => r.lookup_set e.1 j e.2) (obj.nodup_inOrder arrayIndex),
      Record.lookup_inOrder, Record.lookup_empty, Option.or_none]

-- ?2=a&1=b is stored with the 1 first.
example : (getJsonFromUrl (word "?2=a&1=b")).map stringify =
    some ("\x7b\"1\":\"b\",\"2\":\"a\"\x7d".toList.map Char.toNat) := by decide

theorem stringify_ne_nil (obj : Settings) : stringify obj ≠ [] := by
  unfold stringify
  cases obj.inOrder arrayIndex with
  | nil => exact List.cons_ne_nil _ _
  | cons m ms => exact List.cons_ne_nil _ _

end Objects

-- The settings of the URL of a visit.
def Visit.url (v : Visit) : Option Settings := getJsonFromUrl v.search

-- A visit that stores its settings.
def Visit.stores (v : Visit) : Bool :=
  match v.url with
  | none => false
  | some url => truthy ((url.lookup (word "store")).or (v.config.lookup (word "store")))

-- Where the last of some visits takes its settings from, the strongest first:
-- the URLs, the last one first, then the configurations, the first one first.
def layers (vs : List Visit) : List Settings :=
  vs.reverse.filterMap Visit.url ++ vs.map Visit.config

-- What is stored stands for the visits that stored their settings.
def Represents (stored : Option (List Nat)) (vs : List Visit) : Prop :=
  ∃ obj, paramsStored stored = some obj ∧ obj.lookup (word "store") = none ∧
    ∀ j, j ≠ word "__proto__" → j ≠ word "store" →
      obj.lookup j = (layers vs).findSome? fun obj => obj.lookup j

section Visits

variable {stored : Option (List Nat)} {vs : List Visit} {v : Visit} {url : Settings}

theorem layers_concat (hurl : v.url = some url) :
    layers (vs ++ [v]) = url :: (layers vs ++ [v.config]) := by
  unfold layers
  rw [List.reverse_append, List.reverse_singleton, List.singleton_append,
    List.filterMap_cons_some hurl, List.map_append, List.map_singleton, List.cons_append,
    List.append_assoc]

theorem represents_nil : Represents none [] := ⟨Record.empty, rfl, rfl, fun _ _ _ => rfl⟩

-- One visit on top of what is stored.
theorem getParams_represents (hrep : Represents stored vs) (hurl : v.url = some url) :
    ∃ params stored', getParams stored v = some (params, stored') ∧
      (∀ j, j ≠ word "__proto__" → j ≠ word "store" →
        params.lookup j = (layers (vs ++ [v])).findSome? fun obj => obj.lookup j) ∧
      (params.lookup (word "store") = if v.stores then none
        else (url.lookup (word "store")).or (v.config.lookup (word "store"))) ∧
      Represents stored' (if v.stores then vs ++ [v] else vs) := by
  obtain ⟨obj, hobj, hplain, hlayers⟩ := hrep
  let params := merge [v.config, obj, url]
  have hlookup : ∀ j, j ≠ word "__proto__" →
      params.lookup j = (url.lookup j).or ((obj.lookup j).or (v.config.lookup j)) := by
    intro j hj
    refine (lookup_merge hj _).trans ?_
    simp only [List.reverse_cons, List.reverse_nil, List.nil_append, List.cons_append,
      Record.findSome?_cons, List.findSome?_nil, Option.or_none]
  have hstrong : ∀ j, j ≠ word "__proto__" → j ≠ word "store" →
      params.lookup j = (layers (vs ++ [v])).findSome? fun obj => obj.lookup j := by
    intro j hj hstore
    rw [hlookup j hj, hlayers j hj hstore, layers_concat hurl, Record.findSome?_cons,
      List.findSome?_append, Record.findSome?_cons, List.findSome?_nil, Option.or_none]
  have hstore : params.lookup (word "store") =
      (url.lookup (word "store")).or (v.config.lookup (word "store")) := by
    rw [hlookup _ (by decide), hplain, Option.none_or]
  have hstores : v.stores = truthy (params.lookup (word "store")) := by
    unfold Visit.stores
    rw [hurl, hstore]
  have hget : getParams stored v = some
      (if truthy (params.lookup (word "store")) then
        (params.erase (word "store"), some (stringify (params.erase (word "store"))))
      else (params, stored)) := by
    unfold getParams
    rw [hobj, Option.bind_some, show getJsonFromUrl v.search = some url from hurl]
    rfl
  rw [hget, hstores]
  split
  case isTrue =>
      obtain ⟨back, hback, hsame⟩ := lookup_parse_stringify (params.erase (word "store"))
      have hkept : ∀ j, j ≠ word "store" →
          (params.erase (word "store")).lookup j = params.lookup j := by
        intro j hj
        rw [Record.lookup_erase, if_neg (Ne.symm hj)]
      have hgone : (params.erase (word "store")).lookup (word "store") = none := by
        rw [Record.lookup_erase, if_pos rfl]
      have hread : paramsStored (some (stringify (params.erase (word "store")))) = some back := by
        unfold paramsStored
        split
        · rename_i h; cases h
        · rename_i h; exact absurd (Option.some.inj h) (stringify_ne_nil _)
        · rename_i h; obtain rfl := Option.some.inj h; exact hback
      refine ⟨_, _, rfl, fun j hj hstore => (hkept j hstore).trans (hstrong j hj hstore), hgone,
        back, hread, (hsame _).trans hgone, fun j hj hstore => ?_⟩
      exact (hsame j).trans ((hkept j hstore).trans (hstrong j hj hstore))
  case isFalse => exact ⟨_, _, rfl, hstrong, hstore, obj, hobj, hplain, hlayers⟩

theorem represents_browse (vs : List Visit) :
    Represents (browse none vs) (vs.filter Visit.stores) := by
  induction vs using List.reverseRecOn with
  | nil => exact represents_nil
  | append_singleton vs v ih =>
      unfold browse at ih ⊢
      rw [List.foldl_append, List.foldl_cons, List.foldl_nil, List.filter_append]
      cases hurl : v.url with
      | none =>
          have hstores : v.stores = false := by
            unfold Visit.stores
            rw [hurl]
          have hget : ∀ stored, getParams stored v = none := by
            intro stored
            unfold getParams
            rw [show getJsonFromUrl v.search = none from hurl]
            cases paramsStored stored <;> rfl
          rw [hget, List.filter_cons_of_neg (by simp [hstores]), List.filter_nil, List.append_nil]
          exact ih
      | some url =>
          obtain ⟨params, stored', hget, -, -, hrep⟩ := getParams_represents ih hurl
          rw [hget]
          cases hstores : v.stores with
          | true =>
              rw [List.filter_cons_of_pos hstores, List.filter_nil]
              simpa [hstores] using hrep
          | false =>
              rw [List.filter_cons_of_neg (by simp [hstores]), List.filter_nil, List.append_nil]
              simpa [hstores] using hrep

end Visits

-- Over every history of visits, a page takes each of its settings from the
-- strongest layer that has it; storing is never stored itself.
theorem settings_of_visits (vs : List Visit) (v : Visit) (url : Settings) (hurl : v.url = some url) :
    ∃ params stored', getParams (browse none vs) v = some (params, stored') ∧
      (∀ j, j ≠ word "__proto__" → j ≠ word "store" →
        params.lookup j =
          (layers (vs.filter Visit.stores ++ [v])).findSome? fun obj => obj.lookup j) ∧
      params.lookup (word "store") = if v.stores then none
        else (url.lookup (word "store")).or (v.config.lookup (word "store")) := by
  obtain ⟨params, stored', hget, hlayers, hstore, -⟩ :=
    getParams_represents (represents_browse vs) hurl
  exact ⟨params, stored', hget, hlayers, hstore⟩

namespace Sample

-- The members of config.js that are defined, with a nick of the given text.
def config (nick : String) : Settings :=
  (((Record.empty.set (word "port") (.str (word "1234"))).set (word "nick") (.str (word nick))).set
    (word "secret") (.str []))

-- A player stores a nick and a secret, the host of the page changes its
-- defaults, and the player comes back with another nick.
def storing : Visit := ⟨config "", word "?nick=urist&secret=%2F&store"⟩

def later : Visit := ⟨config "guest", word "?nick=m%C3%A4x"⟩

end Sample

theorem settings_of_visits_sample :
    ∃ params stored', getParams (browse none [Sample.later, Sample.storing]) Sample.later =
        some (params, stored') ∧
      params.lookup (word "nick") = some (.str [109, 228, 120]) ∧
      params.lookup (word "secret") = some (.str [47]) ∧
      params.lookup (word "port") = some (.str (word "1234")) := by
  obtain ⟨params, stored', hget, hlayers, -⟩ :=
    settings_of_visits [Sample.later, Sample.storing] Sample.later _ rfl
  refine ⟨params, stored', hget, ?_, ?_, ?_⟩
  · exact (hlayers _ (by decide) (by decide)).trans (by decide)
  · exact (hlayers _ (by decide) (by decide)).trans (by decide)
  · exact (hlayers _ (by decide) (by decide)).trans (by decide)

end Params

end WebFort
