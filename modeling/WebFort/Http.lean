import WebFort.Library.Path
import WebFort.Network

namespace WebFort

open Library Library.Path

-- What the operating system says about a path. One that ends in a separator,
-- in . or in .. names a directory.
structure FileSystem where
  isRegularFile : Bytes → Bool
  regular_name : ∀ p c, isRegularFile p = true → (components p).getLast? = some c → isName c = true

-- The directory of DF; DFHack's own is <df>/hack.
structure Install where
  df : Bytes
  df_text : 0 ∉ df

-- The answers that are kept in memory: status_json() and the atlas.
structure Documents where
  statusJson : Bytes
  atlasPng : Bytes
  atlasJson : Bytes

inductive Body
  | text (data : Bytes)
  -- The contents of the file opened under this path.
  | file (path : Bytes)
  deriving DecidableEq

structure Response where
  status : Nat
  headers : List (String × String)
  body : Body
  deriving DecidableEq

namespace Install

def hackPath (inst : Install) : Bytes := slash inst.df (ascii "hack")

def artRoot (inst : Install) : Bytes := slash (slash inst.df (ascii "data")) (ascii "art")

def staticRoot (inst : Install) : Bytes :=
  slash (slash inst.hackPath (ascii "webfort")) (ascii "static")

end Install

-- What a system call sees of a path.
def cstr (p : Bytes) : Bytes := p.takeWhile (· ≠ 0)

def allowOrigin : String × String := ("Access-Control-Allow-Origin", "*")

def failure (status : Nat) (text : Bytes) : Response := ⟨status, [allowOrigin], .text text⟩

def success (headers : List (String × String)) (body : Body) : Response :=
  ⟨200, allowOrigin :: headers, body⟩

-- std::filesystem::path::extension
def extension (p : Bytes) : Bytes :=
  let name := (components p).getLastD []
  let tail := (name.reverse.takeWhile (· ≠ 46)).reverse
  if name ≠ dotdot ∧ tail.length + 1 < name.length then 46 :: tail else []

def contentType (ext : Bytes) : String :=
  if ext = ascii ".html" then "text/html; charset=utf-8"
  else if ext = ascii ".js" then "application/javascript"
  else if ext = ascii ".css" then "text/css"
  else if ext = ascii ".json" then "application/json"
  else if ext = ascii ".png" then "image/png"
  else if ext = ascii ".ico" then "image/x-icon"
  else if ext = ascii ".svg" then "image/svg+xml"
  else if ext = ascii ".ttf" then "font/ttf"
  else if ext = ascii ".woff" then "font/woff"
  else "application/octet-stream"

-- Everything from the first question mark on is cut off.
def stripQuery (route : Bytes) : Bytes := route.takeWhile (· ≠ 63)

-- The uri class stores "/" for an empty resource.
def requestResource (target : Bytes) : Bytes := if target = [] then ascii "/" else target

def serveArt (fs : FileSystem) (inst : Install) (fname : Bytes) : Response :=
  if sep ∈ fname ∨ 92 ∈ fname ∨ dotdot <:+: fname then failure 400 (ascii "Bad request")
  else
    let artFile := cstr (slash inst.artRoot fname)
    if fs.isRegularFile artFile then success [("Content-Type", "image/png")] (.file artFile)
    else failure 404 (ascii "Art file not found: " ++ fname)

def staticPath (route : Bytes) : Bytes :=
  if route = ascii "/" ∨ route = [] then ascii "/webfort.html" else route

-- operator+= puts nothing between the two.
def serveStatic (fs : FileSystem) (inst : Install) (route : Bytes) : Response :=
  let path := staticPath route
  if dotdot <:+: path then failure 400 (ascii "Bad request")
  else
    let file := inst.staticRoot ++ path
    if fs.isRegularFile (cstr file) then
      success [("Content-Type", contentType (extension file))] (.file (cstr file))
    else
      failure 404 (ascii "Not found: " ++ path ++ ascii "\n(served from " ++ inst.staticRoot ++
        ascii ")")

def serveAtlas (contentType : String) (built : Bool) (data : Bytes) : Response :=
  if built then success [("Content-Type", contentType), ("Cache-Control", "no-cache")] (.text data)
  else failure 404 (ascii "Atlas not yet built")

def onHttp (docs : Documents) (fs : FileSystem) (inst : Install) (target : Bytes) : Response :=
  let route := stripQuery (requestResource target)
  if route = ascii "/api/status.json" then
    success [("Content-Type", "application/json")] (.text docs.statusJson)
  else if route = ascii "/atlas.png" then
    serveAtlas "image/png" (docs.atlasPng ≠ []) docs.atlasPng
  else if route = ascii "/atlas.json" then
    serveAtlas "application/json" (docs.atlasJson ≠ [] ∧ docs.atlasJson ≠ ascii "\x7b\x7d") docs.atlasJson
  else if route.take 8 = ascii "/df-art/" then serveArt fs inst (route.drop 8)
  else serveStatic fs inst route

-- Answered from memory, on purpose.
def memoryRoutes : List Bytes :=
  [ascii "/api/status.json", ascii "/atlas.png", ascii "/atlas.json"]

-- A file that is opened lies in one of the two directories.
def Contained (inst : Install) (cwd : List Bytes) (r : Response) : Prop :=
  ∀ p, r.body = .file p →
    Under (resolve cwd inst.staticRoot) (resolve cwd p) ∨
      DirectlyIn (resolve cwd inst.artRoot) (resolve cwd p)

-- Everything else is an error.
def Refused (route : Bytes) (r : Response) : Prop :=
  route ∉ memoryRoutes → (∀ p, r.body ≠ .file p) → 400 ≤ r.status

-- The request does not continue the name of the static directory, or it names
-- no file that way.
def SlashRooted (fs : FileSystem) (inst : Install) (route : Bytes) : Prop :=
  route.head? = some sep ∨ route = [] ∨ dotdot <:+: route ∨
    fs.isRegularFile (cstr (inst.staticRoot ++ route)) = false

section Roots

variable (inst : Install) (cwd : List Bytes)

theorem resolve_artRoot :
    resolve cwd inst.artRoot = resolve cwd inst.df ++ [ascii "data", ascii "art"] := by
  unfold Install.artRoot
  rw [resolve_slash_name cwd _ (by decide) (by decide),
    resolve_slash_name cwd _ (by decide) (by decide), List.append_assoc]
  rfl

theorem resolve_webfort :
    resolve cwd (slash inst.hackPath (ascii "webfort")) =
      resolve cwd inst.df ++ [ascii "hack", ascii "webfort"] := by
  unfold Install.hackPath
  rw [resolve_slash_name cwd _ (by decide) (by decide),
    resolve_slash_name cwd _ (by decide) (by decide), List.append_assoc]
  rfl

-- The last separator of static_root.
theorem staticRoot_eq :
    inst.staticRoot = slash inst.hackPath (ascii "webfort") ++ sep :: ascii "static" := by
  have hlast : ∃ dir, slash inst.hackPath (ascii "webfort") = dir ++ ascii "webfort" := by
    rcases slash_cases inst.hackPath (q := ascii "webfort") (by decide) with h | ⟨dir, h⟩
    · exact ⟨[], h⟩
    · exact ⟨dir ++ [sep], by rw [h, List.append_assoc]; rfl⟩
  obtain ⟨dir, hdir⟩ := hlast
  have hend : (dir ++ ascii "webfort").getLast? = some 116 := by
    rw [List.getLast?_append_of_ne_nil _ (by decide)]
    rfl
  unfold Install.staticRoot
  rw [hdir]
  unfold slash
  rw [if_neg (by decide), if_neg]
  rw [hend]
  rintro (h | h)
  · rw [h] at hend
    cases hend
  · exact absurd h (by decide)

theorem staticRoot_ne_nil : inst.staticRoot ≠ [] := by
  rw [staticRoot_eq]
  simp

theorem resolve_staticRoot :
    resolve cwd inst.staticRoot =
      resolve cwd (slash inst.hackPath (ascii "webfort")) ++ [ascii "static"] :=
  resolve_slash_name cwd _ (by decide) (by decide)

theorem slash_text {p q : Bytes} (hp : 0 ∉ p) (hq : 0 ∉ q) : 0 ∉ slash p q := by
  intro h
  rcases mem_slash h with h | h | h
  · exact hp h
  · exact absurd h (by decide)
  · exact hq h

theorem artRoot_text : 0 ∉ inst.artRoot :=
  slash_text (slash_text inst.df_text (by decide)) (by decide)

theorem staticRoot_text : 0 ∉ inst.staticRoot :=
  slash_text (slash_text (slash_text inst.df_text (by decide)) (by decide)) (by decide)

theorem cstr_append {p : Bytes} (hp : 0 ∉ p) (q : Bytes) : cstr (p ++ q) = p ++ cstr q := by
  unfold cstr
  refine List.takeWhile_append_of_pos fun b hb => ?_
  simpa using ne_of_mem_of_not_mem hb hp

theorem cstr_slash {p q : Bytes} (hp : 0 ∉ p) (hq : sep ∉ q) :
    cstr (slash p q) = slash p (cstr q) := by
  have hsub : ∀ b ∈ cstr q, b ∈ q := fun b hb => List.takeWhile_subset _ hb
  have hhead := head?_ne_of_not_mem hq
  have hhead' := head?_ne_of_not_mem fun h => hq (hsub sep h)
  unfold slash
  rw [if_neg hhead, if_neg hhead']
  split
  · exact cstr_append hp q
  · rw [cstr_append hp]
    rfl

end Roots

section Serve

variable {fs : FileSystem} {inst : Install} {p : Bytes}

theorem mem_cstr {p : Bytes} {b : UInt8} (h : b ∈ cstr p) : b ∈ p := List.takeWhile_subset _ h

-- The rejections of /df-art/ leave a single component.
theorem serveArt_directlyIn (cwd : List Bytes) {fname : Bytes}
    (h : (serveArt fs inst fname).body = .file p) :
    DirectlyIn (resolve cwd inst.artRoot) (resolve cwd p) := by
  unfold serveArt at h
  split at h
  · cases h
  · rename_i hreject
    have hfname : sep ∉ fname := fun hm => hreject (Or.inl hm)
    have hsep : sep ∉ cstr fname := fun hm => hfname (mem_cstr hm)
    simp only at h
    split at h
    · rename_i hreg
      obtain rfl := Body.file.inj h
      rw [cstr_slash (artRoot_text inst) hfname] at hreg ⊢
      have hlast : (components (slash inst.artRoot (cstr fname))).getLast? = some (cstr fname) := by
        rw [getLast?_components_slash _ (head?_ne_of_not_mem hsep), components_of_not_mem hsep]
        rfl
      exact ⟨_, resolve_slash_name cwd _ hsep (fs.regular_name _ _ hreg hlast)⟩
    · cases h

theorem not_dotdot_cstr {q : Bytes} (h : ¬dotdot <:+: q) : ¬dotdot <:+: cstr q :=
  fun hc => h (hc.trans (List.takeWhile_prefix _).isInfix)

-- Behind a separator the path goes down from the static directory.
theorem static_under (cwd : List Bytes) {rest : Bytes} (hup : ¬dotdot <:+: sep :: rest)
    (hreg : fs.isRegularFile (cstr (inst.staticRoot ++ sep :: rest)) = true) :
    Under (resolve cwd inst.staticRoot) (resolve cwd (cstr (inst.staticRoot ++ sep :: rest))) := by
  have hcstr : cstr (inst.staticRoot ++ sep :: rest) = inst.staticRoot ++ sep :: cstr rest := by
    rw [cstr_append (staticRoot_text inst)]
    rfl
  have hrest : ¬dotdot <:+: cstr rest := not_dotdot_cstr fun h =>
    hup (h.trans (List.suffix_cons sep rest).isInfix)
  obtain ⟨name, hname⟩ : ∃ name, (components (cstr rest)).getLast? = some name :=
    ⟨_, List.getLast?_eq_some_getLast (components_ne_nil _)⟩
  rw [hcstr] at hreg ⊢
  rw [resolve_append_sep, resolve_concat_sep cwd (staticRoot_ne_nil inst)]
  refine under_walk (not_mem_components hrest) (List.mem_of_getLast? hname) ?_
  exact fs.regular_name _ name hreg (by rw [getLast?_components_append_sep, hname])

theorem head?_of_cstr {q : Bytes} {b : UInt8} (h : (cstr q).head? = some b) : q.head? = some b := by
  obtain ⟨rest, hrest⟩ := List.takeWhile_prefix (l := q) (· ≠ 0)
  rw [← hrest, List.head?_append, Option.or_eq_some_iff]
  exact Or.inl h

-- Where static_root ++ path leads for a path without going up.
theorem resolve_static_append (cwd : List Bytes) {r c : Bytes} {cs : List Bytes}
    (hup : ¬dotdot <:+: r) (hr : components r = c :: cs) :
    resolve cwd (inst.staticRoot ++ r) = resolve cwd inst.df ++
      [ascii "hack", ascii "webfort", ascii "static" ++ c] ++ cs.filter isName := by
  have hne : slash inst.hackPath (ascii "webfort") ≠ [] := slash_ne_nil _ (by decide)
  have hcs : components (ascii "static" ++ r) = (ascii "static" ++ c) :: cs := by
    rw [components_append_of_not_mem (by decide), hr]
    rfl
  have hname : isName (ascii "static" ++ c) = true := by simp [isName, ascii, dot, dotdot]
  have hdots : dotdot ∉ (ascii "static" ++ c) :: cs := by
    rw [List.mem_cons, not_or]
    refine ⟨by simp [ascii, dotdot], fun hm => not_mem_components hup ?_⟩
    rw [hr]
    exact List.mem_cons_of_mem _ hm
  rw [staticRoot_eq, List.append_assoc, List.cons_append, resolve_append_sep,
    resolve_concat_sep cwd hne, resolve_webfort, hcs, walk_of_not_mem hdots,
    List.filter_cons_of_pos hname]
  simp

-- Without one it continues the name of that directory and ends outside of both.
theorem static_escapes (cwd : List Bytes) {path : Bytes} (hup : ¬dotdot <:+: path)
    (hhead : path.head? ≠ some sep) :
    ¬(Under (resolve cwd inst.staticRoot) (resolve cwd (cstr (inst.staticRoot ++ path))) ∨
      DirectlyIn (resolve cwd inst.artRoot) (resolve cwd (cstr (inst.staticRoot ++ path)))) := by
  obtain ⟨c, cs, hr⟩ := List.exists_cons_of_ne_nil (components_ne_nil (cstr path))
  rw [cstr_append (staticRoot_text inst), resolve_static_append cwd (not_dotdot_cstr hup) hr,
    resolve_staticRoot, resolve_webfort, resolve_artRoot]
  rintro (⟨names, hnames, h⟩ | ⟨name, h⟩)
  · simp only [List.append_assoc, List.append_cancel_left_eq, List.cons_append, List.nil_append,
      List.cons.injEq, true_and, List.append_right_eq_self] at h
    obtain ⟨rfl, h⟩ := h
    rcases components_eq_nil_cons hr with hnil | hsep
    · rw [hnil] at hr
      obtain ⟨-, rfl⟩ := List.cons.inj hr
      exact hnames h.symm
    · exact hhead (head?_of_cstr hsep)
  · simp only [List.append_assoc, List.append_cancel_left_eq, List.cons_append, List.nil_append,
      List.cons.injEq] at h
    exact absurd h.1 (by decide)

theorem serveStatic_file_iff {route : Bytes} :
    (serveStatic fs inst route).body = .file p ↔
      ¬dotdot <:+: staticPath route ∧
        fs.isRegularFile (cstr (inst.staticRoot ++ staticPath route)) = true ∧
        p = cstr (inst.staticRoot ++ staticPath route) := by
  unfold serveStatic
  by_cases hup : dotdot <:+: staticPath route
  · simp [hup, failure]
  · cases hreg : fs.isRegularFile (cstr (inst.staticRoot ++ staticPath route)) with
    | false => simp [hup, hreg, failure]
    | true => simp [hup, hreg, success, eq_comm]

theorem serveStatic_contained_iff (cwd : List Bytes) (route : Bytes) :
    Contained inst cwd (serveStatic fs inst route) ↔ SlashRooted fs inst route := by
  constructor
  · intro h
    by_contra hescape
    simp only [SlashRooted, not_or, Bool.not_eq_false] at hescape
    obtain ⟨hhead, hne, hup, hreg⟩ := hescape
    have hpath : staticPath route = route := by
      refine if_neg (not_or.mpr ⟨?_, hne⟩)
      rintro rfl
      exact hhead rfl
    refine static_escapes cwd hup hhead (h _ (serveStatic_file_iff.mpr ?_))
    rw [hpath]
    exact ⟨hup, hreg, rfl⟩
  · intro hrooted p hp
    obtain ⟨hup, hreg, rfl⟩ := serveStatic_file_iff.mp hp
    have hslash : (staticPath route).head? = some sep := by
      unfold staticPath at hup hreg ⊢
      split
      · rfl
      · rename_i hne
        rw [if_neg hne] at hup hreg
        rcases hrooted with h | h | h | h
        · exact h
        · exact absurd (Or.inr h) hne
        · exact absurd h hup
        · rw [h] at hreg
          cases hreg
    obtain ⟨rest, hrest⟩ := List.head?_eq_some_iff.mp hslash
    rw [hrest] at hup hreg ⊢
    exact Or.inl (static_under cwd hup hreg)

theorem serveStatic_refused (route : Bytes) (h : ∀ p, (serveStatic fs inst route).body ≠ .file p) :
    400 ≤ (serveStatic fs inst route).status := by
  unfold serveStatic at h ⊢
  simp only at h ⊢
  split
  · exact Nat.le_refl 400
  · split
    · rename_i hup hreg
      rw [if_neg hup, if_pos hreg] at h
      exact absurd rfl (h _)
    · exact Nat.le_add_right 400 4

theorem serveArt_refused (fname : Bytes) (h : ∀ p, (serveArt fs inst fname).body ≠ .file p) :
    400 ≤ (serveArt fs inst fname).status := by
  unfold serveArt at h ⊢
  split
  · exact Nat.le_refl 400
  · simp only at h ⊢
    split
    · rename_i hreject hreg
      rw [if_neg hreject, if_pos hreg] at h
      exact absurd rfl (h _)
    · exact Nat.le_add_right 400 4

end Serve

section Routes

variable {fs : FileSystem} {inst : Install} {route : Bytes} {r : Response}

theorem memory_route (cwd : List Bytes) (hroute : route ∈ memoryRoutes) {data : Bytes}
    (hr : r.body = .text data) :
    Contained inst cwd r ∧ Refused route r ↔ SlashRooted fs inst route := by
  have hslash : route.head? = some sep := by
    simp only [memoryRoutes, List.mem_cons, List.not_mem_nil, or_false] at hroute
    rcases hroute with rfl | rfl | rfl <;> rfl
  have hcontained : Contained inst cwd r := fun p hp => nomatch hr.symm.trans hp
  exact iff_of_true ⟨hcontained, fun h => absurd hroute h⟩ (Or.inl hslash)

theorem serveAtlas_text (contentType : String) (built : Bool) (data : Bytes) :
    ∃ text, (serveAtlas contentType built data).body = .text text := by
  unfold serveAtlas
  split <;> exact ⟨_, rfl⟩

theorem art_route (cwd : List Bytes) (hroute : route.take 8 = ascii "/df-art/") :
    Contained inst cwd (serveArt fs inst (route.drop 8)) ∧
      Refused route (serveArt fs inst (route.drop 8)) ↔ SlashRooted fs inst route := by
  have hslash : route.head? = some sep := by
    rw [← List.take_append_drop 8 route, hroute]
    rfl
  exact iff_of_true
    ⟨fun p hp => Or.inr (serveArt_directlyIn cwd hp), fun _ h => serveArt_refused _ h⟩
    (Or.inl hslash)

end Routes

-- on_http keeps to its two directories exactly for requests that start with
-- a slash, are empty or rejected, or name no file.
theorem static_files_contained_iff (docs : Documents) (fs : FileSystem) (inst : Install)
    (cwd : List Bytes) (target : Bytes) :
    let route := stripQuery (requestResource target)
    Contained inst cwd (onHttp docs fs inst target) ∧ Refused route (onHttp docs fs inst target) ↔
      SlashRooted fs inst route := by
  intro route
  unfold onHttp
  simp only
  split
  · rename_i hroute
    exact memory_route cwd (by simp [memoryRoutes, route, hroute]) rfl
  · split
    · rename_i hroute
      obtain ⟨text, ht⟩ := serveAtlas_text "image/png" (docs.atlasPng ≠ []) docs.atlasPng
      exact memory_route cwd (by simp [memoryRoutes, route, hroute]) ht
    · split
      · rename_i hroute
        obtain ⟨text, ht⟩ := serveAtlas_text "application/json"
          (docs.atlasJson ≠ [] ∧ docs.atlasJson ≠ ascii "\x7b\x7d") docs.atlasJson
        exact memory_route cwd (by simp [memoryRoutes, route, hroute]) ht
      · split
        · rename_i hroute
          exact art_route cwd hroute
        · exact (and_iff_left fun _ h => serveStatic_refused _ h).trans
            (serveStatic_contained_iff cwd _)

-- A disk with one regular file.
def onlyFile (path : Bytes) (h : ∀ c, (components path).getLast? = some c → isName c = true) :
    FileSystem where
  isRegularFile p := p = path
  regular_name p c hp := by
    rw [of_decide_eq_true hp]
    exact h c

-- GET .bak opens static.bak next to the static directory.
theorem sibling_is_served :
    let secret := ascii "/df/hack/webfort/static.bak"
    let fs := onlyFile secret (by decide)
    let inst : Install := ⟨ascii "/df", by decide⟩
    let r := onHttp ⟨[], [], []⟩ fs inst (ascii ".bak")
    r.body = .file secret ∧ ¬Contained inst [] r := by
  intro secret fs inst r
  have hbody : r.body = .file secret := by decide
  exact ⟨hbody, fun h => absurd (h secret hbody) (by decide)⟩

end WebFort
