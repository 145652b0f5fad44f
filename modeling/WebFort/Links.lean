import WebFort.Credentials
import WebFort.Params

namespace WebFort

open Library

namespace Params

-- String(val)
def toText : Option Setting → Text
  | none => word "undefined"
  | some (.bool true) => word "true"
  | some (.bool false) => word "false"
  | some (.str units) => units

-- None is the URIError of a half of a surrogate pair that stands alone.
def encodeURIComponent (s : Text) : Option Bytes :=
  (Percent.scalars (s.map UInt16.toNat)).map Percent.encode

-- The path of wsUri.
def wsResource (params : Settings) : Option Bytes :=
  (encodeURIComponent (toText (params.lookup (word "nick")))).bind fun nick =>
    (encodeURIComponent (toText (params.lookup (word "secret")))).map fun secret =>
      47 :: nick ++ 47 :: secret

def ofBytes (bs : Bytes) : Text := bs.map UInt8.toUInt16

-- The query string of a link to the page for a player.
def link (nick secret : List Char) : Text :=
  word "?nick=" ++ ofBytes (Percent.encode nick) ++
    38 :: (word "secret=" ++ ofBytes (Percent.encode secret))

section Values

theorem toNat_ofBytes (bs : Bytes) : (ofBytes bs).map UInt16.toNat = bs.map UInt8.toNat := by
  rw [ofBytes, List.map_map]
  exact List.map_congr_left fun b _ => UInt8.toNat_toUInt16 b

-- The code units of a string.
def unitsOf (s : List Char) : Text := (Percent.codeUnits s).map UInt16.ofNat

theorem toNat_unitsOf (s : List Char) : (unitsOf s).map UInt16.toNat = Percent.codeUnits s := by
  have hsmall : ∀ u ∈ Percent.codeUnits s, (UInt16.ofNat u).toNat = u := fun u hu =>
    UInt16.toNat_ofNat_of_lt' (Percent.codeUnits_lt s u hu)
  rw [unitsOf, List.map_map]
  exact (List.map_congr_left hsmall).trans (List.map_id _)

theorem encodeURIComponent_unitsOf (s : List Char) :
    encodeURIComponent (unitsOf s) = some (Percent.encode s) := by
  rw [encodeURIComponent, toNat_unitsOf, Percent.scalars_codeUnits]
  rfl

theorem decodeURIComponent_encode (s : List Char) :
    decodeURIComponent (ofBytes (Percent.encode s)) = some (unitsOf s) := by
  rw [decodeURIComponent, toNat_ofBytes, Percent.decode_encode]
  rfl

-- What false means for a member makes no difference for its text.
theorem toText_ofText (val : Text) : toText (some (Setting.ofText val)) = val := by
  unfold Setting.ofText
  split
  case isTrue h => exact h.symm
  case isFalse => rfl

theorem not_mem_ofBytes (s : List Char) {c : UInt8} (hc : c = 38 ∨ c = 61) :
    c.toUInt16 ∉ ofBytes (Percent.encode s) := by
  intro h
  obtain ⟨b, hb, heq⟩ := List.mem_map.mp h
  obtain ⟨hamp, hequals⟩ := Percent.encode_query s b hb
  have hsame : b = c := by
    apply UInt8.toNat_inj.mp
    rw [← UInt8.toNat_toUInt16 b, ← UInt8.toNat_toUInt16 c, heq]
  rcases hc with rfl | rfl
  · exact hamp hsame
  · exact hequals hsame

theorem readPart_pair {key val decoded : Text} (hkey : 61 ∉ key) (hval : 61 ∉ val)
    (hdecoded : decodeURIComponent val = some decoded) :
    readPart (key ++ 61 :: val) = some (replaceDash key, Setting.ofText decoded) := by
  have hitem : (key ++ 61 :: val).splitOn 61 = [key, val] := by
    rw [List.splitOn_append_cons_self_of_not_mem hkey, List.splitOn_eq_singleton hval]
  unfold readPart
  rw [hitem]
  show (decodeURIComponent val).map _ = _
  rw [hdecoded]
  rfl

end Values

section Link

variable (nick secret : List Char)

theorem splitOn_link : ((link nick secret).drop 1).splitOn 38 =
    [word "nick" ++ 61 :: ofBytes (Percent.encode nick),
      word "secret" ++ 61 :: ofBytes (Percent.encode secret)] := by
  have hdrop : (link nick secret).drop 1 =
      (word "nick" ++ 61 :: ofBytes (Percent.encode nick)) ++
        38 :: (word "secret" ++ 61 :: ofBytes (Percent.encode secret)) := rfl
  have hpart : ∀ (key : Text) (s : List Char), 38 ∉ key →
      38 ∉ key ++ 61 :: ofBytes (Percent.encode s) := by
    intro key s hkey hmem
    rcases List.mem_append.mp hmem with h | h
    · exact hkey h
    · rcases List.mem_cons.mp h with h | h
      · exact absurd h (by decide)
      · exact not_mem_ofBytes s (Or.inl rfl) h
  rw [hdrop, List.splitOn_append_cons_self_of_not_mem (hpart _ nick (by decide)),
    List.splitOn_eq_singleton (hpart _ secret (by decide))]

theorem getJsonFromUrl_link : ∃ url, getJsonFromUrl (link nick secret) = some url ∧
    url.lookup (word "nick") = some (Setting.ofText (unitsOf nick)) ∧
    url.lookup (word "secret") = some (Setting.ofText (unitsOf secret)) := by
  have hread : ∀ (key : Text) (s : List Char), 61 ∉ key →
      readPart (key ++ 61 :: ofBytes (Percent.encode s)) =
        some (replaceDash key, Setting.ofText (unitsOf s)) := fun key s hkey =>
    readPart_pair hkey (not_mem_ofBytes s (Or.inr rfl)) (decodeURIComponent_encode s)
  refine ⟨assign (assign Record.empty (replaceDash (word "nick"), Setting.ofText (unitsOf nick)))
    (replaceDash (word "secret"), Setting.ofText (unitsOf secret)), ?_, ?_, ?_⟩
  · unfold getJsonFromUrl
    rw [splitOn_link]
    simp only [List.foldlM_cons, List.foldlM_nil, hread _ nick (show 61 ∉ word "nick" by decide),
      hread _ secret (show 61 ∉ word "secret" by decide)]
    rfl
  · rw [lookup_assign (by decide), lookup_assign (by decide),
      if_neg (show replaceDash (word "secret") ≠ word "nick" by decide),
      if_pos (show replaceDash (word "nick") = word "nick" by decide)]
  · rw [lookup_assign (by decide),
      if_pos (show replaceDash (word "secret") = word "secret" by decide)]

end Link

-- Whatever a browser has stored, the link decides who the page connects as,
-- and the server takes exactly that: the nick comes back as its text, and the
-- rights are those of the password.
theorem link_decides_player (vs : List Visit) (v : Visit) (nick secret : List Char)
    (hlink : v.search = link nick secret) :
    ∃ params stored', getParams (browse none vs) v = some (params, stored') ∧
      wsResource params = some (wsPath nick secret) ∧
      ∀ (s : Endpoint) (hdl : Handle) (st : State), (s hdl).resource = wsPath nick secret →
        admits s hdl st →
        ∃ cl, (onOpen s hdl st).state.clients.find? hdl = some cl ∧
          Percent.decode (units cl.nick) = some (Percent.codeUnits nick) ∧
          (cl.isAdmin = true ↔ Percent.encode secret = st.config.secret) := by
  obtain ⟨url, hurl, hnick, hsecret⟩ := getJsonFromUrl_link nick secret
  have hvisit : v.url = some url := by
    unfold Visit.url
    rw [hlink, hurl]
  obtain ⟨params, stored', hget, hlayers, -, -⟩ :=
    getParams_represents (represents_browse vs) hvisit
  have hfirst : ∀ j setting, j ≠ word "__proto__" → j ≠ word "store" → url.lookup j = some setting →
      params.lookup j = some setting := by
    intro j setting hj hstore hset
    rw [hlayers j hj hstore, layers_concat hvisit, Record.findSome?_cons, hset, Option.some_or]
  have hresource : wsResource params = some (wsPath nick secret) := by
    unfold wsResource
    rw [hfirst _ _ (by decide) (by decide) hnick, hfirst _ _ (by decide) (by decide) hsecret,
      toText_ofText, toText_ofText, encodeURIComponent_unitsOf, encodeURIComponent_unitsOf]
    rfl
  refine ⟨params, stored', hget, hresource, fun s hdl st hres hadm => ?_⟩
  obtain ⟨hclient, hadmin⟩ := openClient_wsPath st hres
  have hcl : (onOpen s hdl st).state.clients.find? hdl = some (openClient s hdl st) := by
    rw [onOpen_admitted hadm, register, OrdMap.find?_insert, if_pos rfl]
  refine ⟨_, hcl, ?_, hadmin⟩
  rw [hclient]
  exact Percent.decode_encode nick

-- A browser that has stored another player, and a link for a nick with a
-- slash.
theorem link_decides_player_sample :
    ∃ params stored', getParams (browse none [Sample.storing])
        ⟨Sample.config "", link "a/b".toList "plump".toList⟩ = some (params, stored') ∧
      wsResource params = some (wsPath "a/b".toList "plump".toList) ∧
      ∃ cl, (onOpen (pageOf "a/b".toList "plump".toList) 0
          (guarded "plump".toList)).state.clients.find? 0 = some cl ∧ cl.isAdmin = true := by
  obtain ⟨params, stored', hget, hresource, hserver⟩ := link_decides_player [Sample.storing]
    ⟨Sample.config "", link "a/b".toList "plump".toList⟩ "a/b".toList "plump".toList rfl
  obtain ⟨cl, hcl, -, hadmin⟩ := hserver (pageOf "a/b".toList "plump".toList) 0
    (guarded "plump".toList) rfl ⟨by decide, by decide, by decide⟩
  exact ⟨params, stored', hget, hresource, cl, hcl, hadmin.mpr (by decide)⟩

end Params

end WebFort
