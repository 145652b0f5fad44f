import WebFort.Header
import WebFort.Loop
import WebFort.Library.Percent.Encode

namespace WebFort

open Library

-- The path of wsUri, the request target of the page's connection.
def wsPath (nick secret : List Char) : Bytes :=
  47 :: Percent.encode nick ++ 47 :: Percent.encode secret

-- A piece without the separator and without NUL is passed over as a whole.
theorem splitLoop_piece (c : UInt8) {piece : Bytes} (h : ∀ b ∈ piece, b ≠ c ∧ b ≠ 0)
    (rest cur : Bytes) (result : List Bytes) :
    splitLoop c (piece ++ rest) cur result = splitLoop c rest (cur ++ piece) result := by
  induction piece generalizing cur with
  | nil => simp
  | cons b piece ih =>
      obtain ⟨hc, hnul⟩ := h b List.mem_cons_self
      rw [List.cons_append, splitLoop, if_neg hnul, if_neg hc,
        ih (fun b hb => h b (List.mem_cons_of_mem _ hb)), List.append_assoc]
      rfl

theorem split_two {c : UInt8} (hc : c ≠ 0) {a b : Bytes} (ha : ∀ x ∈ a, x ≠ c ∧ x ≠ 0)
    (hb : ∀ x ∈ b, x ≠ c ∧ x ≠ 0) : split (a ++ c :: b) c = [a, b] := by
  have hend : splitLoop c b [] [a] = [a, b] := by
    have hpiece := splitLoop_piece c hb [] [] [a]
    rw [List.append_nil] at hpiece
    exact hpiece
  unfold split
  rw [splitLoop_piece c ha, splitLoop, if_neg hc, if_pos rfl]
  exact hend

section Path

variable {s : Endpoint} {hdl : Handle} {nick secret : List Char}

theorem path_wsPath (h : (s hdl).resource = wsPath nick secret) :
    path s hdl = [Percent.encode nick, Percent.encode secret] := by
  unfold path
  rw [h]
  exact split_two (by decide) (Percent.encode_safe nick) (Percent.encode_safe secret)

theorem openClient_wsPath (st : State) (h : (s hdl).resource = wsPath nick secret) :
    (openClient s hdl st).nick = Percent.encode nick ∧
      ((openClient s hdl st).isAdmin = true ↔ Percent.encode secret = st.config.secret) := by
  have hpath := path_wsPath h
  simp [openClient, pathNick, pathSecret, hpath]

end Path

-- The comparison of a password that the browser has escaped: it needs no
-- escapes, or neither form of it is the one configured.
def Comparable (configured : Bytes) (secret : List Char) : Prop :=
  (∀ c ∈ secret, Percent.isUnreserved c = true) ∨
    (configured ≠ Percent.utf8 secret ∧ configured ≠ Percent.encode secret)

theorem comparable_iff (configured : Bytes) (secret : List Char) :
    Comparable configured secret ↔
      (Percent.encode secret = configured ↔ Percent.utf8 secret = configured) := by
  unfold Comparable
  rw [← Percent.encode_eq_utf8_iff]
  constructor
  · rintro (h | ⟨hplain, hescaped⟩)
    · rw [h]
    · exact iff_of_false (Ne.symm hescaped) (Ne.symm hplain)
  · intro h
    by_cases hsame : Percent.encode secret = Percent.utf8 secret
    · exact Or.inl hsame
    · refine Or.inr ⟨?_, ?_⟩
      · rintro rfl
        exact hsame (h.mpr rfl)
      · rintro rfl
        exact hsame (h.mp rfl).symm

-- A client that on_open admits has its nick; it has the rights its password
-- gives it exactly when the escapes do not matter.
theorem credentials_survive_iff (s : Endpoint) (hdl : Handle) (st : State)
    (nick secret : List Char) (hres : (s hdl).resource = wsPath nick secret)
    (hadm : admits s hdl st) :
    (∃ cl, (onOpen s hdl st).state.clients.find? hdl = some cl ∧
        (cl.isAdmin = true ↔ Percent.utf8 secret = st.config.secret) ∧
        Percent.decode (units cl.nick) = some (Percent.codeUnits nick)) ↔
      Comparable st.config.secret secret := by
  obtain ⟨hnick, hadmin⟩ := openClient_wsPath st hres
  have hcl : (onOpen s hdl st).state.clients.find? hdl = some (openClient s hdl st) := by
    rw [onOpen_admitted hadm, register, OrdMap.find?_insert, if_pos rfl]
  rw [comparable_iff]
  constructor
  · rintro ⟨cl, hfind, hrights, -⟩
    rw [hcl] at hfind
    obtain rfl := Option.some.inj hfind
    exact hadmin.symm.trans hrights
  · intro h
    refine ⟨_, hcl, hadmin.trans h, ?_⟩
    rw [hnick]
    exact Percent.decode_encode nick

-- A page that connects with the given credentials.
def pageOf (nick secret : List Char) : Endpoint := fun hdl =>
  { Sample.endpoint hdl with
    resource := wsPath nick secret
    resource_ne := List.cons_ne_nil _ _ }

def guarded (secret : List Char) : State :=
  State.init { Config.default with secret := Percent.utf8 secret } (Sample.game 64)

-- A nick with a slash and a percent sign, and a plain password.
theorem credentials_survive_iff_sample :
    (∃ cl, (onOpen (pageOf "a/50%".toList "urist".toList) 0
          (guarded "urist".toList)).state.clients.find? 0 = some cl ∧
        (cl.isAdmin = true ↔
          Percent.utf8 "urist".toList = (guarded "urist".toList).config.secret) ∧
        Percent.decode (units cl.nick) = some (Percent.codeUnits "a/50%".toList)) ↔
      Comparable (guarded "urist".toList).config.secret "urist".toList :=
  credentials_survive_iff (pageOf "a/50%".toList "urist".toList) 0 (guarded "urist".toList) _ _ rfl
    ⟨by decide, by decide, by decide⟩

-- The right password, with a space in it.
theorem password_with_space_is_wrong :
    let secret := "plump helmet".toList
    let st := guarded secret
    admits (pageOf "urist".toList secret) 0 st ∧
      Percent.utf8 secret = st.config.secret ∧
      ((onOpen (pageOf "urist".toList secret) 0 st).state.clients.find? 0).map Client.isAdmin =
        some false :=
  ⟨⟨by decide, by decide, by decide⟩, by decide, by decide⟩

end WebFort
