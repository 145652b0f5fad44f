import WebFort.Library.Json
import WebFort.Library.JsonText
import WebFort.Expiry
import WebFort.Status

namespace WebFort

open Library
open Library.JsonText (Value points Unescaped)

-- str of server.cpp, which puts quotes around and escapes nothing
def str (s : Bytes) : Bytes := ascii "\"" ++ s ++ ascii "\""

-- A bool behind std::boolalpha
def boolalpha (b : Bool) : Bytes := if b then ascii "true" else ascii "false"

-- DFHACK_VERSION is a text of the headers of DFHack.
def statusJson (dfhackVersion : Bytes) (st : State) : Bytes :=
  let activePlayers := int32 st.clients.size
  let currentPlayer := st.getActive.nick
  let timeLeft := (getTimeLeft st).1
  let isSomebodyPlaying := decide (st.activeConn ≠ none)
  ascii "\x7b" ++
    ascii " \"active_players\": " ++ Decimal.signed activePlayers ++
    ascii ", \"current_player\": " ++ str currentPlayer ++
    ascii ", \"time_left\": " ++ Decimal.signed timeLeft ++
    ascii ", \"is_somebody_playing\": " ++ boolalpha isSomebodyPlaying ++
    ascii ", \"using_ingame_time\": " ++ boolalpha st.config.ingameTime ++
    ascii ", \"dfhack_version\": " ++ str dfhackVersion ++
    ascii ", \"webfort_version\": " ++ str wfVersion ++
    ascii " \x7d\n"

-- What the document is for; nick is the name in UTF-16.
def statusValue (dfhackVersion : Bytes) (st : State) (nick : List Nat) : Value :=
  .obj [(points (ascii "active_players"), .num st.clients.size 0),
    (points (ascii "current_player"), .str nick),
    (points (ascii "time_left"), .num (getTimeLeft st).1 0),
    (points (ascii "is_somebody_playing"), .bool (decide (st.activeConn ≠ none))),
    (points (ascii "using_ingame_time"), .bool st.config.ingameTime),
    (points (ascii "dfhack_version"), .str (points dfhackVersion)),
    (points (ascii "webfort_version"), .str (points wfVersion))]

-- The bytes are the UTF-8 of a JSON text with this value, in which the current
-- player has the nick of the client with the turn.
def StatusValid (dfhackVersion : Bytes) (st : State) : Prop :=
  ∃ text nick : List Char, Percent.utf8 text = statusJson dfhackVersion st ∧
    Percent.utf8 nick = st.getActive.nick ∧
      JsonText.parse (text.map Char.toNat) =
        some (statusValue dfhackVersion st (Percent.codeUnits nick))

-- Text in UTF-8 that needs no escape.
def Quotable (nick : Bytes) : Prop :=
  ∃ text : List Char, Percent.utf8 text = nick ∧ Unescaped (text.map Char.toNat)

section Text

open JsonText
open Percent (IsAscii chars)

-- What stands before the nick, and what stands behind it.
def statusHead (st : State) : Bytes :=
  ascii "\x7b" ++ (ascii " \"active_players\": " ++ (Decimal.signed (int32 st.clients.size) ++
    (ascii ", \"current_player\": " ++ ascii "\"")))

def statusTail (v : Bytes) (st : State) : Bytes :=
  ascii "\"" ++ (ascii ", \"time_left\": " ++ (Decimal.signed (getTimeLeft st).1 ++
    (ascii ", \"is_somebody_playing\": " ++ (boolalpha (decide (st.activeConn ≠ none)) ++
    (ascii ", \"using_ingame_time\": " ++ (boolalpha st.config.ingameTime ++
    (ascii ", \"dfhack_version\": " ++ (str v ++
    (ascii ", \"webfort_version\": " ++ (str wfVersion ++ ascii " \x7d\n"))))))))))

theorem statusJson_eq (v : Bytes) (st : State) :
    statusJson v st = statusHead st ++ st.getActive.nick ++ statusTail v st := by
  unfold statusJson statusHead statusTail str
  simp only [List.append_assoc]

theorem isAscii_signed (n : Int) : IsAscii (Decimal.signed n) := by
  have hdigits : IsAscii (Decimal.digits n.natAbs) := by
    intro b hb
    have hdigit := List.all_eq_true.mp (Decimal.digits_all n.natAbs) b hb
    simp only [Decimal.isDigit, Bool.and_eq_true, decide_eq_true_eq, UInt8.le_iff_toNat_le]
      at hdigit
    exact Nat.lt_of_le_of_lt hdigit.2 (by decide)
  unfold Decimal.signed
  split
  · exact List.forall_mem_cons.mpr ⟨by decide, hdigits⟩
  · exact hdigits

theorem isAscii_boolalpha (b : Bool) : IsAscii (boolalpha b) := by
  cases b with
  | false => decide
  | true => decide

theorem isAscii_of_plain {v : Bytes} (hv : v.all isPlain = true) : IsAscii v := by
  intro b hb
  have hplain := List.all_eq_true.mp hv b hb
  simp only [isPlain, Bool.and_eq_true, decide_eq_true_eq, UInt8.lt_iff_toNat_lt] at hplain
  exact Nat.lt_trans hplain.1.1.2 (by decide)

theorem isAscii_statusHead (st : State) : IsAscii (statusHead st) := by
  have hbrace : IsAscii (ascii "\x7b") := by decide
  have hplayers : IsAscii (ascii " \"active_players\": ") := by decide
  have hplayer : IsAscii (ascii ", \"current_player\": " ++ ascii "\"") := by decide
  exact hbrace.append (hplayers.append ((isAscii_signed _).append hplayer))

theorem isAscii_statusTail {v : Bytes} (hv : v.all isPlain = true) (st : State) :
    IsAscii (statusTail v st) := by
  have hquote : IsAscii (ascii "\"") := by decide
  have htime : IsAscii (ascii ", \"time_left\": ") := by decide
  have hplaying : IsAscii (ascii ", \"is_somebody_playing\": ") := by decide
  have hingame : IsAscii (ascii ", \"using_ingame_time\": ") := by decide
  have hdfhack : IsAscii (ascii ", \"dfhack_version\": ") := by decide
  have hrest : IsAscii (ascii ", \"webfort_version\": " ++ (str wfVersion ++ ascii " \x7d\n")) := by
    decide
  have hversion : IsAscii (str v) := (hquote.append (isAscii_of_plain hv)).append hquote
  exact hquote.append (htime.append ((isAscii_signed _).append (hplaying.append
    ((isAscii_boolalpha _).append (hingame.append ((isAscii_boolalpha _).append
      (hdfhack.append (hversion.append hrest))))))))

theorem unescaped_points {bs : Bytes} (h : bs.all isPlain = true) : Unescaped (points bs) := by
  intro c hc
  obtain ⟨b, hb, rfl⟩ := List.mem_map.mp hc
  have hplain := List.all_eq_true.mp h b hb
  simp only [isPlain, Bool.and_eq_true, decide_eq_true_eq, bne_iff_ne, ne_eq, ← UInt8.toNat_inj,
    UInt8.le_iff_toNat_le] at hplain
  exact ⟨hplain.1.2, hplain.2, hplain.1.1.1⟩

def numEntry (key : Bytes) (n : Int) : Entry :=
  ⟨points key, points (Decimal.signed n), .num n 0⟩

def boolEntry (key : Bytes) (b : Bool) : Entry := ⟨points key, points (boolalpha b), .bool b⟩

theorem numEntry_sound {key : Bytes} (hkey : key.all isPlain = true) (n : Int) :
    (numEntry key n).Sound := ⟨unescaped_points hkey, Reads.number n⟩

theorem boolEntry_sound {key : Bytes} (hkey : key.all isPlain = true) (b : Bool) :
    (boolEntry key b).Sound := by
  cases b with
  | false => exact ⟨unescaped_points hkey, Reads.false⟩
  | true => exact ⟨unescaped_points hkey, Reads.true⟩

def playersEntry (st : State) : Entry := numEntry (ascii "active_players") (int32 st.clients.size)

def nickEntry (nick : List Char) : Entry :=
  quoted (points (ascii "current_player")) (nick.map Char.toNat)

def timeEntry (st : State) : Entry := numEntry (ascii "time_left") (getTimeLeft st).1

def lastEntries (v : Bytes) (st : State) : List Entry :=
  [boolEntry (ascii "is_somebody_playing") (decide (st.activeConn ≠ none)),
    boolEntry (ascii "using_ingame_time") st.config.ingameTime,
    quoted (points (ascii "dfhack_version")) (points v),
    quoted (points (ascii "webfort_version")) (points wfVersion)]

theorem entries_sound {v : Bytes} (hv : v.all isPlain = true) (st : State) :
    ∀ e ∈ timeEntry st :: lastEntries v st, e.Sound := by
  have hdfhack : (quoted (points (ascii "dfhack_version")) (points v)).Sound :=
    quoted_sound (unescaped_points (by decide)) (unescaped_points hv)
  have hwebfort : (quoted (points (ascii "webfort_version")) (points wfVersion)).Sound :=
    quoted_sound (unescaped_points (by decide)) (unescaped_points (by decide))
  simp only [lastEntries, List.forall_mem_cons]
  exact ⟨numEntry_sound (by decide) _, boolEntry_sound (by decide) _,
    boolEntry_sound (by decide) _, hdfhack, hwebfort, List.forall_mem_nil _⟩

theorem points_statusHead (st : State) : points (statusHead st) =
    123 :: 32 :: (lead (playersEntry st).key ++ ((playersEntry st).text ++
      44 :: 32 :: (lead (points (ascii "current_player")) ++ [34]))) := by
  have hplayers : points (ascii " \"active_players\": ") =
      32 :: lead (points (ascii "active_players")) := rfl
  have hplayer : points (ascii ", \"current_player\": ") =
      44 :: 32 :: lead (points (ascii "current_player")) := rfl
  have hquote : points (ascii "\"") = [34] := rfl
  simp only [statusHead, points_append, hplayers, hplayer, hquote, playersEntry, numEntry,
    List.cons_append]
  rfl

theorem points_statusTail (v : Bytes) (st : State) :
    points (statusTail v st) = 34 :: entriesText [10] (timeEntry st :: lastEntries v st) := by
  have htime : points (ascii ", \"time_left\": ") =
      44 :: 32 :: lead (points (ascii "time_left")) := rfl
  have hplaying : points (ascii ", \"is_somebody_playing\": ") =
      44 :: 32 :: lead (points (ascii "is_somebody_playing")) := rfl
  have hingame : points (ascii ", \"using_ingame_time\": ") =
      44 :: 32 :: lead (points (ascii "using_ingame_time")) := rfl
  have hdfhack : points (ascii ", \"dfhack_version\": ") =
      44 :: 32 :: lead (points (ascii "dfhack_version")) := rfl
  have hwebfort : points (ascii ", \"webfort_version\": ") =
      44 :: 32 :: lead (points (ascii "webfort_version")) := rfl
  have hstr : ∀ s : Bytes, points (str s) = 34 :: (points s ++ [34]) := by
    intro s
    simp only [str, points_append]
    rfl
  simp only [statusTail, points_append, htime, hplaying, hingame, hdfhack, hwebfort, hstr]
  rfl

theorem utf8_document {v : Bytes} (hv : v.all isPlain = true) {st : State} {nick : List Char}
    (hnick : Percent.utf8 nick = st.getActive.nick) :
    Percent.utf8 (chars (statusHead st) ++ nick ++ chars (statusTail v st)) = statusJson v st := by
  rw [Percent.utf8_append, Percent.utf8_append, Percent.utf8_chars (isAscii_statusHead st),
    Percent.utf8_chars (isAscii_statusTail hv st), hnick, statusJson_eq]

-- The only text behind the bytes.
theorem text_points {v : Bytes} (hv : v.all isPlain = true) {st : State} {text nick : List Char}
    (htext : Percent.utf8 text = statusJson v st)
    (hnick : Percent.utf8 nick = st.getActive.nick) :
    text.map Char.toNat =
      document [10] (playersEntry st) (nickEntry nick :: timeEntry st :: lastEntries v st) := by
  have hsplit : text = chars (statusHead st) ++ nick ++ chars (statusTail v st) :=
    Percent.utf8_injective (htext.trans (utf8_document hv hnick).symm)
  rw [hsplit, List.map_append, List.map_append, Percent.chars_toNat (isAscii_statusHead st),
    Percent.chars_toNat (isAscii_statusTail hv st)]
  show points (statusHead st) ++ nick.map Char.toNat ++ points (statusTail v st) = _
  rw [points_statusHead, points_statusTail]
  simp only [document, entriesText, nickEntry, quoted, List.cons_append, List.nil_append,
    List.append_assoc]

theorem statusValue_eq (v : Bytes) {st : State} (h : st.clients.size < 2 ^ 31)
    (nick : List Char) : statusValue v st (Percent.codeUnits nick) =
      .obj ((playersEntry st).member ::
        (nickEntry nick :: timeEntry st :: lastEntries v st).map Entry.member) := by
  have hsize : int32 st.clients.size = st.clients.size := int32_of_bounds (by omega) (by omega)
  have hunits : Percent.codeUnits nick = JsonText.units (nick.map Char.toNat) := by
    rw [Percent.codeUnits, JsonText.units, List.flatMap_map]
  simp only [statusValue, hunits, playersEntry, nickEntry, timeEntry, lastEntries, numEntry,
    boolEntry, quoted, Entry.member, List.map_cons, List.map_nil, units_points, hsize]

end Text

-- The nick of a state in quotes is a nick in JSON.
theorem statusJson_valid_iff {v : Bytes} (hv : v.all isPlain = true) (st : State) :
    StatusValid v st ↔ Quotable st.getActive.nick ∧ st.clients.size < 2 ^ 31 := by
  have hplayers : (playersEntry st).Sound := numEntry_sound (by decide) _
  have hdoc : ∀ nick : List Char, JsonText.parse (JsonText.document [10] (playersEntry st)
      (nickEntry nick :: timeEntry st :: lastEntries v st)) =
        some (.obj ((playersEntry st).member ::
          (nickEntry nick :: timeEntry st :: lastEntries v st).map JsonText.Entry.member)) ↔
      Unescaped (nick.map Char.toNat) := fun nick =>
    JsonText.parse_quoted_iff hplayers (unescaped_points (by decide))
      ⟨116, _, rfl, rfl, by decide, by decide⟩ (entries_sound hv st) rfl _
  constructor
  · rintro ⟨text, nick, htext, hnick, hparse⟩
    rw [text_points hv htext hnick] at hparse
    have hsize : st.clients.size < 2 ^ 31 := by
      have hhead := JsonText.parse_document_head hplayers hparse
      have hint := (Value.num.inj (Prod.mk.inj (Option.some.inj hhead)).2).1
      have hlt := (int32_eq_self_iff (Int.natCast_nonneg _)).mp hint.symm
      omega
    rw [statusValue_eq v hsize] at hparse
    exact ⟨⟨nick, hnick, (hdoc nick).mp hparse⟩, hsize⟩
  · rintro ⟨⟨nick, hnick, hunescaped⟩, hsize⟩
    have htext := utf8_document hv hnick
    refine ⟨_, nick, htext, hnick, ?_⟩
    rw [text_points hv htext hnick, statusValue_eq v hsize]
    exact (hdoc nick).mpr hunescaped

theorem quotable_of_plain {bs : Bytes} (h : bs.all isPlain = true) : Quotable bs := by
  have hascii := isAscii_of_plain h
  refine ⟨Percent.chars bs, Percent.utf8_chars hascii, ?_⟩
  rw [Percent.chars_toNat hascii]
  exact unescaped_points h

-- In every state that is reached the document is what it is for exactly when
-- the address of the connection with the turn has a nick that needs no escape.
theorem status_valid_iff {v : Bytes} (hv : v.all isPlain = true) (s : Endpoint) (config : Config)
    (g : Game) (es : List Event) (hes : (server s).Valid (World.init config g) es) :
    let st := ((server s).exec (World.init config g) es).st
    StatusValid v st ↔
      (∀ c, st.activeConn = some c → Quotable (pathNick s c)) ∧ st.clients.size < 2 ^ 31 := by
  intro st
  rw [statusJson_valid_iff hv st]
  refine and_congr_left fun _ => ?_
  cases hactive : st.activeConn with
  | none =>
      have hnamed : Named st := by
        have hst : st = (plugin s).exec (World.init config g).st es := server_exec_st s _ es
        rw [hst]
        exact (Named.init config g).run s es
      rw [hnamed.getActive_of_none hactive]
      exact iff_of_true (quotable_of_plain (by decide)) nofun
  | some c =>
      rw [active_nick hes hactive]
      constructor
      · rintro hquotable c' hc'
        rw [← Option.some.inj hc']
        exact hquotable
      · intro hall
        exact hall c rfl

theorem status_valid_iff_sample :
    StatusValid (ascii "50.11-r2") ((server Sample.endpoint).exec
      (World.init Sample.config (Sample.game 64)) Sample.audience).st := by
  refine (status_valid_iff (by decide) Sample.endpoint Sample.config (Sample.game 64)
    Sample.audience ⟨⟨rfl, rfl⟩, ⟨rfl, rfl⟩, ⟨rfl, rfl⟩, trivial⟩).mpr ⟨?_, by decide⟩
  intro c hc
  obtain rfl : c = 0 := Option.some.inj (hc.symm.trans rfl)
  exact quotable_of_plain (by decide)

namespace Sample

-- Everybody comes under the given address.
def quoter : Endpoint := fun _ => conn .hybi13 "/a\"b" (by decide)

def injector : Endpoint :=
  fun _ => conn .hybi13 "/x\",\"active_players\":0,\"y\":\"z" (by decide)

def played (s : Endpoint) : State := ((server s).exec (World.init config (game 64)) audience).st

end Sample

def memberKeys : Value → List (List Nat)
  | .obj ms => ms.map Prod.fst
  | _ => []

-- A quote in the nick leaves no JSON, and a nick that goes on as JSON adds
-- members, one of them for the second time.
theorem nick_breaks_document :
    let v := ascii "50.11-r2"
    let start := World.init Sample.config (Sample.game 64)
    let st := Sample.played Sample.quoter
    ((server Sample.quoter).Valid start Sample.audience ∧ st.getActive.nick = ascii "a\"b" ∧
      ¬StatusValid v st ∧ JsonText.parse (points (statusJson v st)) = none) ∧
    (server Sample.injector).Valid start Sample.audience ∧
      (JsonText.parse (points (statusJson v (Sample.played Sample.injector)))).map memberKeys =
        some ([ascii "active_players", ascii "current_player", ascii "active_players", ascii "y",
          ascii "time_left", ascii "is_somebody_playing", ascii "using_ingame_time",
          ascii "dfhack_version", ascii "webfort_version"].map points) := by
  intro v start st
  have hnone : JsonText.parse (points (statusJson v st)) = none := by
    rw [← Option.isNone_iff_eq_none]
    decide +kernel
  have hascii : Percent.IsAscii (statusJson v st) := by decide +kernel
  refine ⟨⟨⟨⟨rfl, rfl⟩, ⟨rfl, rfl⟩, ⟨rfl, rfl⟩, trivial⟩, by decide +kernel, ?_, hnone⟩,
    ⟨⟨rfl, rfl⟩, ⟨rfl, rfl⟩, ⟨rfl, rfl⟩, trivial⟩, by decide +kernel⟩
  rintro ⟨text, nick, htext, -, hparse⟩
  have htexts : text = Percent.chars (statusJson v st) := by
    apply Percent.utf8_injective
    rw [htext, Percent.utf8_chars hascii]
  rw [htexts, Percent.chars_toNat hascii] at hparse
  exact absurd (hnone.symm.trans hparse) nofun

end WebFort
