import AwsIotSdk.DiscoveryResponse
import Mathlib.Data.List.TakeWhile

/-! The rows of a discovery response against the document: what the document has up to its
first malformed element, and what is read of it. -/

namespace AwsIotSdk

open JsonValue

namespace DiscoveryResponse

/-- A connectivity entry with the names it stands under, as the document has them. -/
structure Row where
  groupName : Bytes
  ggcName : Bytes
  id : Bytes
  hostAddress : Bytes
  port : Int
  metadata : Bytes
  deriving DecidableEq, Repr

namespace Row

def info (r : Row) : ConnectivityInfo :=
  ⟨cString r.groupName, cString r.ggcName, cString r.id, cString r.hostAddress, toUInt16 r.port,
    cString r.metadata⟩

def ofInfo (i : ConnectivityInfo) : Row :=
  ⟨i.groupName, i.ggcName, i.id, i.hostAddress, i.port.toNat, i.metadata⟩

/-- The library has the port. -/
def Fits (r : Row) : Prop := -2147483648 ≤ r.port ∧ r.port ≤ 2147483647

instance decidableFits (r : Row) : Decidable r.Fits := by
  unfold Fits
  infer_instance

/-- Nothing of the row is lost: the port is one, and no string has a zero byte. -/
def Exact (r : Row) : Prop :=
  (0 ≤ r.port ∧ r.port ≤ 65535) ∧
    ∀ str ∈ [r.groupName, r.ggcName, r.id, r.hostAddress, r.metadata], 0 ∉ str

theorem cString_eq_self_iff (str : Bytes) : cString str = str ↔ 0 ∉ str := by
  rw [cString, List.takeWhile_eq_self_iff]
  constructor
  · intro h hmem
    simpa using h 0 hmem
  · intro h c hc
    have hne : c ≠ 0 := fun hzero => h (hzero ▸ hc)
    simpa using hne

theorem toUInt16_toNat (n : Int) : ((toUInt16 n).toNat : Int) = n % 65536 := by
  have hpos := Int.emod_nonneg n (show (65536 : Int) ≠ 0 by decide)
  have hlt := Int.emod_lt_of_pos n (show (0 : Int) < 65536 by decide)
  rw [toUInt16, UInt16.toNat_ofNat']
  omega

theorem ofInfo_info_iff (r : Row) : ofInfo r.info = r ↔ r.Exact := by
  have hport : ((toUInt16 r.port).toNat : Int) = r.port ↔ 0 ≤ r.port ∧ r.port ≤ 65535 := by
    rw [toUInt16_toNat]
    omega
  obtain ⟨groupName, ggcName, id, hostAddress, port, metadata⟩ := r
  simp only [ofInfo, info, Row.mk.injEq, cString_eq_self_iff, hport, Exact, List.forall_mem_cons]
  simp only [List.not_mem_nil, false_implies, implies_true, and_true]
  tauto

theorem Exact.fits {r : Row} (h : r.Exact) : r.Fits := by
  obtain ⟨⟨h0, h1⟩, -⟩ := h
  exact ⟨by omega, by omega⟩

end Row

/-! ### The document, element by element -/

def ConnectivityEntry.complete (e : ConnectivityEntry) : Bool :=
  e.id.isSome && e.hostAddress.isSome && e.portNumber.isSome

def ConnectivityEntry.row (groupName ggcName : Bytes) (e : ConnectivityEntry) : Row :=
  ⟨groupName, ggcName, e.id.getD [], e.hostAddress.getD [], e.portNumber.getD 0,
    e.metadata.getD []⟩

namespace Core

def complete (c : Core) : Bool := c.thingArn.isSome && c.connectivity.isSome

def entries (c : Core) : List ConnectivityEntry := c.connectivity.getD []

def sound (c : Core) : Bool := c.complete && c.entries.all ConnectivityEntry.complete

/-- The entries ahead of the first malformed one. -/
def rows (groupName : Bytes) (c : Core) : List Row :=
  (c.entries.takeWhile ConnectivityEntry.complete).map
    (ConnectivityEntry.row groupName (c.thingArn.getD []))

end Core

/-- The rows ahead of the first malformed element. -/
def rowsOfCores (groupName : Bytes) : List Core → List Row
  | [] => []
  | c :: cs =>
    if c.complete then
      c.rows groupName ++ (if c.sound then rowsOfCores groupName cs else [])
    else []

/-- The rows that follow it in later cores, ahead of one that is malformed itself. -/
def overrunOfCores (groupName : Bytes) : List Core → List Row
  | [] => []
  | c :: cs =>
    if c.complete then
      if c.sound then overrunOfCores groupName cs
      else (cs.takeWhile Core.complete).flatMap (Core.rows groupName)
    else []

namespace Group

def complete (g : Group) : Bool := g.groupId.isSome && g.cores.isSome && g.cas.isSome

def name (g : Group) : Bytes := g.groupId.getD []

def coreList (g : Group) : List Core := g.cores.getD []

def sound (g : Group) : Bool := g.complete && g.coreList.all Core.sound

/-- The rows that are read, of every core up to one that lacks a key. -/
def visited (g : Group) : List Row :=
  (g.coreList.takeWhile Core.complete).flatMap (Core.rows g.name)

end Group

/-- The groups up to the one that has the first malformed element. -/
def processed : List Group → List Group
  | [] => []
  | g :: gs => if g.complete then g :: (if g.sound then processed gs else []) else []

def rowsOf (gs : List Group) : List Row :=
  (processed gs).flatMap (fun g => rowsOfCores g.name g.coreList)

def overrunOf (gs : List Group) : List Row :=
  (processed gs).flatMap (fun g => overrunOfCores g.name g.coreList)

def visitedRows (gs : List Group) : List Row := (processed gs).flatMap Group.visited

/-- The CA lists of the groups that have a row. -/
def served (gs : List Group) : List (Bytes × List Bytes) :=
  ((processed gs).filter (fun g => !g.visited.isEmpty)).map
    (fun g => (cString g.name, (g.cas.getD []).map cString))

/-! ### What is read of it -/

theorem Member.of_some {α : Type} {R : JsonValue Int → α → Prop} {v : JsonValue Int}
    {name : Bytes} {a : α} (h : Member R v name (some a)) :
    ∃ x, v.getMember name = .ok x ∧ R x a := by
  rw [Member] at h
  rw [getMember]
  generalize v.findMember name = o at h
  cases h with
  | some hx => exact ⟨_, rfl, hx⟩

theorem Member.hasMember {α : Type} {R : JsonValue Int → α → Prop} {v : JsonValue Int}
    {name : Bytes} {a : Option α} (hv : v.isObject = true) (h : Member R v name a) :
    v.hasMember name = .ok a.isSome := by
  obtain ⟨ms, rfl⟩ := isObject_iff.1 hv
  rw [Member] at h
  change Except.ok ((JsonValue.object ms).findMember name).isSome = _
  generalize (JsonValue.object ms).findMember name = o at h
  cases h <;> rfl

theorem Member.getString {β : Type} {v : JsonValue Int} {name str : Bytes}
    (h : Member IsString v name (some str)) (f : Bytes → Except Fault β) :
    (v.getMember name >>= fun x => x.getString >>= f) = f (cString str) := by
  obtain ⟨x, hget, rfl⟩ := h.of_some
  rw [hget, ok_bind]
  rfl

theorem Member.getArray {α β : Type} {R : JsonValue Int → α → Prop} {v : JsonValue Int}
    {name : Bytes} {as : List α} (h : Member (IsArrayOf R) v name (some as)) :
    ∃ xs, List.Forall₂ R xs as ∧ ∀ f : List (JsonValue Int) → Except Fault β,
      (v.getMember name >>= fun x => x.getArray >>= f) = f xs := by
  obtain ⟨x, hget, xs, rfl, hxs⟩ := h.of_some
  refine ⟨xs, hxs, fun f => ?_⟩
  rw [hget, ok_bind]
  rfl

theorem getStrings_eq {xs : List (JsonValue Int)} {strs : List Bytes}
    (h : List.Forall₂ IsString xs strs) : getStrings xs = .ok (strs.map cString) := by
  induction h with
  | nil => rfl
  | cons hx hrest ih =>
    obtain rfl := hx
    rw [getStrings, ih]
    rfl

/-- The variables after certain rows of one group. -/
def Parsed.extended (p : Parsed) (groupName : Bytes) (caList : List Bytes) (rows : List Row)
    (sound : Bool) : Parsed :=
  ⟨if sound then p.parsingResponse else .discoverResponseUnexpectedJsonStructureError,
    p.connectivityInfoList ++ rows.map Row.info,
    if rows.isEmpty then p.rootCaMap else p.rootCaMap.insert groupName caList⟩

/-- The same, where the library has all of the ports. -/
def Parsed.extend (p : Parsed) (groupName : Bytes) (caList : List Bytes) (rows : List Row)
    (sound : Bool) : Except Fault Parsed :=
  if ∀ r ∈ rows, r.Fits then .ok (p.extended groupName caList rows sound)
  else .error .assertionFailed

theorem Parsed.extended_append (p : Parsed) (groupName : Bytes) (caList : List Bytes)
    (rows more : List Row) (sound sound' : Bool) :
    (p.extended groupName caList rows sound).extended groupName caList more sound' =
      p.extended groupName caList (rows ++ more) (sound && sound') := by
  have hcode : (p.extended groupName caList (rows ++ more) (sound && sound')).parsingResponse =
      ((p.extended groupName caList rows sound).extended groupName caList more
        sound').parsingResponse := by
    cases sound <;> cases sound' <;> rfl
  cases rows with
  | nil => simpa [extended] using hcode.symm
  | cons r rows => cases more <;> simpa [extended, SortedMap.insert_insert_self] using hcode.symm

theorem Parsed.extend_append (p : Parsed) (groupName : Bytes) (caList : List Bytes)
    (rows more : List Row) (sound sound' : Bool) :
    (p.extend groupName caList rows sound >>= fun p => p.extend groupName caList more sound') =
      p.extend groupName caList (rows ++ more) (sound && sound') := by
  rw [extend, extend]
  simp only [List.forall_mem_append]
  split_ifs with hrows hboth hboth
  · rw [ok_bind, extend, if_pos hboth.2, extended_append]
  · rw [ok_bind, extend, if_neg (fun hmore => hboth ⟨hrows, hmore⟩)]
  · exact absurd hboth.1 hrows
  · rfl

theorem hasMembers_cons {v : JsonValue Int} {name : Bytes} {b : Bool} (names : List Bytes)
    (h : v.hasMember name = .ok b) :
    hasMembers v (name :: names) = if b then hasMembers v names else .ok false := by
  rw [hasMembers, h, ok_bind]

theorem IsEntry.hasMembers {v : JsonValue Int} {e : ConnectivityEntry} (h : IsEntry v e) :
    hasMembers v [idKey, hostAddressKey, portKey] = .ok e.complete := by
  rw [hasMembers_cons _ (h.id.hasMember h.object),
    hasMembers_cons _ (h.hostAddress.hasMember h.object),
    hasMembers_cons _ (h.portNumber.hasMember h.object), DiscoveryResponse.hasMembers,
    ConnectivityEntry.complete]
  cases e.id <;> cases e.hostAddress <;> cases e.portNumber <;> rfl

theorem IsEntry.getMetadata {v : JsonValue Int} {e : ConnectivityEntry} (h : IsEntry v e) :
    getMetadata v = .ok (cString (e.metadata.getD [])) := by
  rw [DiscoveryResponse.getMetadata, h.metadata.hasMember h.object, ok_bind]
  have hmetadata := h.metadata
  cases hm : e.metadata with
  | none => rfl
  | some str =>
    rw [hm] at hmetadata
    obtain ⟨x, hget, rfl⟩ := hmetadata.of_some
    rw [hget]
    rfl

theorem Parsed.add_extend (p : Parsed) {r : Row} (h : r.Fits) (caList : List Bytes)
    (rows : List Row) (sound : Bool) :
    (p.add r.info caList).extend (cString r.groupName) caList rows sound =
      p.extend (cString r.groupName) caList (r :: rows) sound := by
  have hone : p.extend (cString r.groupName) caList [r] true = .ok (p.add r.info caList) := by
    rw [extend, if_pos (by simpa using h)]
    rfl
  have happend := p.extend_append (cString r.groupName) caList [r] rows true sound
  rw [hone, ok_bind, Bool.true_and, List.singleton_append] at happend
  exact happend

theorem parseConnectivityInfo_eq {v : JsonValue Int} {e : ConnectivityEntry} (h : IsEntry v e)
    (hc : e.complete = true) (groupName ggcName : Bytes) :
    parseConnectivityInfo (cString groupName) (cString ggcName) v =
      if (e.row groupName ggcName).Fits then .ok (e.row groupName ggcName).info
      else .error .assertionFailed := by
  have hid := h.id
  have hhostAddress := h.hostAddress
  have hport := h.portNumber
  simp only [ConnectivityEntry.complete, Bool.and_eq_true, Option.isSome_iff_exists] at hc
  obtain ⟨⟨⟨id, heid⟩, hostAddress, hehost⟩, port, heport⟩ := hc
  rw [heid] at hid
  rw [hehost] at hhostAddress
  rw [heport] at hport
  obtain ⟨x, hgetPort, rfl⟩ := hport.of_some
  rw [parseConnectivityInfo, hid.getString, hhostAddress.getString, h.getMetadata, ok_bind,
    hgetPort, ok_bind, getInt, ConnectivityEntry.row, heid, hehost, heport]
  by_cases hfits : -2147483648 ≤ port ∧ port ≤ 2147483647
  · rw [if_pos hfits, ok_bind]
    exact (if_pos hfits).symm
  · rw [if_neg hfits, error_bind]
    exact (if_neg hfits).symm

/-- One entry after another, up to one that is malformed. -/
theorem parseConnectivity_eq {groupItr : JsonValue Int} {g : Group} (hg : IsGroup groupItr g)
    {cas : List Bytes} (hcas : g.cas = some cas) (groupName ggcName : Bytes)
    {xs : List (JsonValue Int)} {es : List ConnectivityEntry} (h : List.Forall₂ IsEntry xs es)
    (p : Parsed) :
    parseConnectivity groupItr (cString groupName) (cString ggcName) xs p =
      p.extend (cString groupName) (cas.map cString)
        ((es.takeWhile ConnectivityEntry.complete).map (ConnectivityEntry.row groupName ggcName))
        (es.all ConnectivityEntry.complete) := by
  induction h generalizing p with
  | nil => simp [parseConnectivity, Parsed.extend, Parsed.extended]
  | @cons x e xs es hx hrest ih =>
    rw [parseConnectivity, hx.hasMembers, ok_bind]
    cases hc : e.complete with
    | false => simp [hc, Parsed.extend, Parsed.extended, Parsed.unexpected]
    | true =>
      have hcasMember := hg.cas
      rw [hcas] at hcasMember
      obtain ⟨strs, hstrs, hget⟩ := hcasMember.getArray (β := Parsed)
      rw [if_pos rfl, parseConnectivityInfo_eq hx hc]
      by_cases hfits : (e.row groupName ggcName).Fits
      · rw [if_pos hfits, ok_bind, hget, getStrings_eq hstrs, ok_bind, ih,
          List.takeWhile_cons_of_pos hc, List.all_cons, hc, Bool.true_and]
        exact p.add_extend hfits (cas.map cString) _ _
      · rw [if_neg hfits, error_bind]
        simp [Parsed.extend, hc, hfits]

theorem IsCore.hasMembers {v : JsonValue Int} {c : Core} (h : IsCore v c) :
    hasMembers v [ggcThingArnKey, connectivityInfoArrayKey] = .ok c.complete := by
  rw [hasMembers_cons _ (h.thingArn.hasMember h.object),
    hasMembers_cons _ (h.connectivity.hasMember h.object), DiscoveryResponse.hasMembers,
    Core.complete]
  cases c.thingArn <;> cases c.connectivity <;> rfl

/-- The inner loop starts again at the next core. -/
theorem parseCores_eq {groupItr : JsonValue Int} {g : Group} (hg : IsGroup groupItr g)
    {cas : List Bytes} (hcas : g.cas = some cas) (groupName : Bytes)
    {xs : List (JsonValue Int)} {cs : List Core} (h : List.Forall₂ IsCore xs cs) (p : Parsed) :
    parseCores groupItr (cString groupName) xs p =
      p.extend (cString groupName) (cas.map cString)
        ((cs.takeWhile Core.complete).flatMap (Core.rows groupName)) (cs.all Core.sound) := by
  induction h generalizing p with
  | nil => simp [parseCores, Parsed.extend, Parsed.extended]
  | @cons x c xs cs hx hrest ih =>
    rw [parseCores, hx.hasMembers, ok_bind]
    cases hc : c.complete with
    | false =>
      have hsound : c.sound = false := by rw [Core.sound, hc, Bool.false_and]
      simp [hc, hsound, Parsed.extend, Parsed.extended, Parsed.unexpected]
    | true =>
      have hcomplete := hc
      rw [Core.complete, Bool.and_eq_true, Option.isSome_iff_exists,
        Option.isSome_iff_exists] at hcomplete
      obtain ⟨⟨thingArn, harn⟩, entries, hentries⟩ := hcomplete
      have harnMember := hx.thingArn
      have hentriesMember := hx.connectivity
      rw [harn] at harnMember
      rw [hentries] at hentriesMember
      obtain ⟨ys, hys, hget⟩ := hentriesMember.getArray (β := Parsed)
      have hrows : c.rows groupName = (entries.takeWhile ConnectivityEntry.complete).map
          (ConnectivityEntry.row groupName thingArn) := by
        rw [Core.rows, Core.entries, harn, hentries]
        rfl
      have hsound : c.sound = entries.all ConnectivityEntry.complete := by
        rw [Core.sound, hc, Core.entries, hentries, Bool.true_and]
        rfl
      rw [if_pos rfl, harnMember.getString, hget,
        parseConnectivity_eq hg hcas groupName thingArn hys p]
      simp only [ih]
      rw [Parsed.extend_append, List.takeWhile_cons_of_pos hc, List.flatMap_cons, List.all_cons,
        hrows, hsound]

theorem IsGroup.hasMembers {v : JsonValue Int} {g : Group} (h : IsGroup v g) :
    hasMembers v [groupIdKey, ggcArrayKey, rootCaKey] = .ok g.complete := by
  rw [hasMembers_cons _ (h.groupId.hasMember h.object),
    hasMembers_cons _ (h.cores.hasMember h.object),
    hasMembers_cons _ (h.cas.hasMember h.object), DiscoveryResponse.hasMembers, Group.complete]
  cases g.groupId <;> cases g.cores <;> cases g.cas <;> rfl

/-- The variables after a list of groups. -/
def Parsed.afterGroups (p : Parsed) (gs : List Group) : Parsed :=
  ⟨if gs.all Group.sound then p.parsingResponse
    else .discoverResponseUnexpectedJsonStructureError,
    p.connectivityInfoList ++ (visitedRows gs).map Row.info, p.rootCaMap.insertAll (served gs)⟩

def Parsed.extendGroups (p : Parsed) (gs : List Group) : Except Fault Parsed :=
  if ∀ r ∈ visitedRows gs, r.Fits then .ok (p.afterGroups gs) else .error .assertionFailed

def Group.caList (g : Group) : List Bytes := (g.cas.getD []).map cString

theorem visitedRows_cons {g : Group} (hg : g.complete = true) (gs : List Group) :
    visitedRows (g :: gs) = g.visited ++ if g.sound then visitedRows gs else [] := by
  rw [visitedRows, processed, if_pos hg, List.flatMap_cons]
  cases g.sound <;> rfl

theorem insertAll_served_cons {g : Group} (hg : g.complete = true) (gs : List Group)
    (m : SortedMap Bytes (List Bytes)) :
    m.insertAll (served (g :: gs)) =
      (if g.visited.isEmpty then m else m.insert (cString g.name) g.caList).insertAll
        (if g.sound then served gs else []) := by
  rw [served, processed, if_pos hg]
  cases hvisited : g.visited.isEmpty with
  | true => cases g.sound <;> simp [hvisited, served]
  | false => cases g.sound <;> simp [hvisited, served, SortedMap.insertAll, Group.caList]

theorem Parsed.afterGroups_cons {g : Group} (hg : g.complete = true) (gs : List Group)
    (p : Parsed) :
    p.afterGroups (g :: gs) =
      (p.extended (cString g.name) g.caList g.visited g.sound).afterGroups
        (if g.sound then gs else []) := by
  rw [afterGroups, afterGroups, visitedRows_cons hg, insertAll_served_cons hg]
  cases hsound : g.sound with
  | true => simp [extended, hsound]
  | false => simp [extended, hsound, visitedRows, served, processed]

theorem Parsed.extendGroups_nil (p : Parsed) : p.extendGroups [] = .ok p := by
  simp [extendGroups, afterGroups, visitedRows, processed, served, SortedMap.insertAll]

theorem Parsed.extendGroups_cons {g : Group} (hg : g.complete = true) (gs : List Group)
    (p : Parsed) :
    p.extendGroups (g :: gs) =
      (p.extend (cString g.name) g.caList g.visited g.sound >>= fun p =>
        p.extendGroups (if g.sound then gs else [])) := by
  have hmore : visitedRows (if g.sound then gs else []) =
      if g.sound then visitedRows gs else [] := by
    cases g.sound <;> rfl
  rw [extendGroups, extend, visitedRows_cons hg, ← hmore]
  by_cases hrows : ∀ r ∈ g.visited, r.Fits
  · rw [if_pos hrows, ok_bind, extendGroups, ← afterGroups_cons hg]
    simp only [List.forall_mem_append, and_iff_right hrows]
  · rw [if_neg hrows, error_bind, if_neg]
    intro hboth
    exact hrows (fun r hr => hboth r (List.mem_append_left _ hr))

/-- A group with all its members is read as its visited rows, and the groups behind it are
read where it is sound. -/
theorem parseGroups_cons {x : JsonValue Int} {g : Group} (hx : IsGroup x g)
    (hc : g.complete = true) (xs : List (JsonValue Int)) (p : Parsed) :
    parseGroups (x :: xs) p =
      (p.extend (cString g.name) g.caList g.visited g.sound >>= fun p =>
        if p.parsingResponse ≠ .success then .ok p else parseGroups xs p) := by
  have hcomplete := hc
  simp only [Group.complete, Bool.and_eq_true, Option.isSome_iff_exists] at hcomplete
  obtain ⟨⟨⟨groupId, hid⟩, cores, hcores⟩, cas, hcas⟩ := hcomplete
  have hidMember := hx.groupId
  have hcoresMember := hx.cores
  rw [hid] at hidMember
  rw [hcores] at hcoresMember
  obtain ⟨ys, hys, hget⟩ := hcoresMember.getArray (β := Parsed)
  have hname : g.name = groupId := by rw [Group.name, hid]; rfl
  have hlist : g.caList = cas.map cString := by rw [Group.caList, hcas]; rfl
  have hvisited : g.visited = (cores.takeWhile Core.complete).flatMap (Core.rows groupId) := by
    rw [Group.visited, Group.coreList, hcores, hname]
    rfl
  have hsound : cores.all Core.sound = g.sound := by
    rw [Group.sound, hc, Group.coreList, hcores, Bool.true_and]
    rfl
  rw [parseGroups, hx.hasMembers, ok_bind, hc, if_pos rfl, hidMember.getString, hget,
    parseCores_eq hx hcas groupId hys p, ← hvisited, ← hlist, ← hname, hsound]

theorem parseGroups_eq {xs : List (JsonValue Int)} {gs : List Group}
    (h : List.Forall₂ IsGroup xs gs) (p : Parsed) (hp : p.parsingResponse = .success) :
    parseGroups xs p = p.extendGroups gs := by
  induction h generalizing p with
  | nil => exact (p.extendGroups_nil).symm
  | @cons x g xs gs hx hrest ih =>
    cases hc : g.complete with
    | false =>
      have hsound : g.sound = false := by rw [Group.sound, hc, Bool.false_and]
      rw [parseGroups, hx.hasMembers, ok_bind]
      simp [Parsed.extendGroups, Parsed.afterGroups, visitedRows, processed, hc, hsound, served,
        SortedMap.insertAll, Parsed.unexpected]
    | true =>
      rw [parseGroups_cons hx hc, Parsed.extendGroups_cons hc, Parsed.extend]
      by_cases hrows : ∀ r ∈ g.visited, r.Fits
      · rw [if_pos hrows, ok_bind, ok_bind]
        cases hs : g.sound with
        | false =>
          have hfailed : (p.extended (cString g.name) g.caList g.visited false).parsingResponse ≠
              .success := by
            simp [Parsed.extended]
          rw [if_pos hfailed]
          exact (Parsed.extendGroups_nil _).symm
        | true =>
          have hsuccess : (p.extended (cString g.name) g.caList g.visited true).parsingResponse =
              .success := hp
          rw [if_neg (not_not.2 hsuccess)]
          exact ih _ hsuccess
      · rw [if_neg hrows, error_bind, error_bind]

theorem getParsedResponse_eq {v : JsonValue Int} {groups : Option (List Group)}
    (h : IsDocument v groups) (infos : List ConnectivityInfo)
    (rootCaMap : SortedMap Bytes (List Bytes)) :
    getParsedResponse v infos rootCaMap =
      match groups with
      | none => .error .assertionFailed
      | some gs => Parsed.extendGroups ⟨.success, infos, rootCaMap⟩ gs := by
  have hgroups := h.groups
  rw [getParsedResponse]
  cases groups with
  | none =>
    have hnone : v.getMember groupArrayKey = .error .assertionFailed := by
      rw [Member] at hgroups
      rw [JsonValue.getMember]
      generalize v.findMember groupArrayKey = o at hgroups
      cases hgroups
      rfl
    rw [hnone, error_bind]
  | some gs =>
    obtain ⟨xs, hxs, hget⟩ := hgroups.getArray (β := Parsed)
    rw [hget]
    exact parseGroups_eq hxs _ rfl

/-! ### What the document asks for -/

/-- No element lacks a key. -/
def Complete (groups : Option (List Group)) : Prop :=
  ∃ gs, groups = some gs ∧ ∀ g ∈ gs, g.sound = true

/-- The rows up to the first malformed element, and the CA lists of their groups. -/
structure Flattened (groups : Option (List Group)) (infos : List ConnectivityInfo)
    (p : Parsed) : Prop where
  success_iff : p.parsingResponse = .success ↔ Complete groups
  rows : ∃ added, p.connectivityInfoList = infos ++ added ∧
    added.map Row.ofInfo = rowsOf (groups.getD [])
  caLists : ∀ g ∈ processed (groups.getD []), p.rootCaMap.find g.name = some (g.cas.getD [])

/-- The document has its groups, nothing is read behind its first malformed element, every
row is exact, and the list that the map has or gets first for a group is the group's. -/
structure Regular (groups : Option (List Group)) (rootCaMap : SortedMap Bytes (List Bytes)) :
    Prop where
  hasGroups : groups.isSome = true
  noOverrun : overrunOf (groups.getD []) = []
  exact_rows : ∀ r ∈ rowsOf (groups.getD []), r.Exact
  caLists : ∀ g ∈ processed (groups.getD []),
    (rootCaMap.find g.name).or (SortedMap.lookup g.name (served (groups.getD []))) =
      some (g.cas.getD [])

theorem visited_eq (groupName : Bytes) (cs : List Core) :
    (cs.takeWhile Core.complete).flatMap (Core.rows groupName) =
      rowsOfCores groupName cs ++ overrunOfCores groupName cs := by
  induction cs with
  | nil => rfl
  | cons c cs ih =>
    cases hc : c.complete with
    | false => simp [rowsOfCores, overrunOfCores, hc]
    | true =>
      rw [List.takeWhile_cons_of_pos hc, List.flatMap_cons, rowsOfCores, overrunOfCores, if_pos hc,
        if_pos hc]
      cases hs : c.sound with
      | false => simp
      | true => simp [ih]

theorem Group.visited_eq (g : Group) :
    g.visited = rowsOfCores g.name g.coreList ++ overrunOfCores g.name g.coreList :=
  DiscoveryResponse.visited_eq g.name g.coreList

theorem visitedRows_length (gs : List Group) :
    (visitedRows gs).length = (rowsOf gs).length + (overrunOf gs).length := by
  have hperm := (processed gs).flatMap_append_perm (fun g => rowsOfCores g.name g.coreList)
    (fun g => overrunOfCores g.name g.coreList)
  simp only [← Group.visited_eq] at hperm
  have hlength := hperm.length_eq
  rw [List.length_append] at hlength
  exact hlength.symm

theorem visitedRows_eq {gs : List Group} (h : overrunOf gs = []) : visitedRows gs = rowsOf gs := by
  rw [overrunOf, List.flatMap_eq_nil_iff] at h
  apply List.flatMap_congr
  intro g hg
  rw [g.visited_eq, h g hg, List.append_nil]

theorem map_ofInfo_info_iff (rows : List Row) :
    (rows.map Row.info).map Row.ofInfo = rows ↔ ∀ r ∈ rows, r.Exact := by
  induction rows with
  | nil => simp
  | cons r rows ih =>
    rw [List.map_cons, List.map_cons, List.cons.injEq, ih, Row.ofInfo_info_iff,
      List.forall_mem_cons]

theorem afterGroups_flattened_iff (gs : List Group) (infos : List ConnectivityInfo)
    (rootCaMap : SortedMap Bytes (List Bytes)) :
    Flattened (some gs) infos (Parsed.afterGroups ⟨.success, infos, rootCaMap⟩ gs) ↔
      Regular (some gs) rootCaMap := by
  have hcode : (Parsed.afterGroups ⟨.success, infos, rootCaMap⟩ gs).parsingResponse = .success ↔
      Complete (some gs) := by
    simp [Parsed.afterGroups, Complete]
  have hlists : ∀ g : Group,
      (Parsed.afterGroups ⟨.success, infos, rootCaMap⟩ gs).rootCaMap.find g.name =
        (rootCaMap.find g.name).or (SortedMap.lookup g.name (served gs)) :=
    fun g => SortedMap.find_insertAll rootCaMap (served gs) g.name
  constructor
  · intro h
    obtain ⟨added, hadded, hrows⟩ := h.rows
    obtain rfl : (visitedRows gs).map Row.info = added := List.append_cancel_left hadded
    have hlength := congrArg List.length hrows
    rw [List.length_map, List.length_map, visitedRows_length] at hlength
    have hoverrun : overrunOf gs = [] := by
      apply List.length_eq_zero_iff.1
      change _ = (rowsOf gs).length at hlength
      omega
    rw [visitedRows_eq hoverrun] at hrows
    refine ⟨rfl, hoverrun, (map_ofInfo_info_iff (rowsOf gs)).1 hrows, fun g hg => ?_⟩
    rw [Option.getD_some, ← hlists g]
    exact h.caLists g hg
  · intro h
    refine ⟨hcode, ⟨(visitedRows gs).map Row.info, rfl, ?_⟩, fun g hg => ?_⟩
    · have hrows : visitedRows gs = rowsOf gs := visitedRows_eq h.noOverrun
      rw [hrows]
      exact (map_ofInfo_info_iff (rowsOf gs)).2 h.exact_rows
    · rw [hlists g]
      exact h.caLists g hg

/-- A document is flattened as it asks for exactly when it is regular. -/
theorem flattened_iff {v : JsonValue Int} {groups : Option (List Group)} (h : IsDocument v groups)
    (infos : List ConnectivityInfo) (rootCaMap : SortedMap Bytes (List Bytes)) :
    (∃ p, getParsedResponse v infos rootCaMap = .ok p ∧ Flattened groups infos p) ↔
      Regular groups rootCaMap := by
  rw [getParsedResponse_eq h]
  cases groups with
  | none =>
    refine ⟨fun ⟨p, hp, _⟩ => (by cases hp), fun hr => ?_⟩
    have hnone := hr.hasGroups
    cases hnone
  | some gs =>
    rw [← afterGroups_flattened_iff gs infos rootCaMap]
    dsimp only
    rw [Parsed.extendGroups]
    by_cases hfits : ∀ r ∈ visitedRows gs, r.Fits
    · rw [if_pos hfits]
      simp
    · rw [if_neg hfits]
      refine ⟨fun ⟨p, hp, _⟩ => (by cases hp), fun hflat => ?_⟩
      have hr := (afterGroups_flattened_iff gs infos rootCaMap).1 hflat
      refine absurd (fun r hmem => ?_) hfits
      have hrow : r ∈ rowsOf gs := by
        have heq : visitedRows gs = rowsOf gs := visitedRows_eq hr.noOverrun
        rwa [heq] at hmem
      exact (hr.exact_rows r hrow).fits

/-! ### Documents of one group -/

def entryJson (port : Int) : JsonValue Int :=
  .object [(idKey, .string (text "i")), (hostAddressKey, .string (text "h")),
    (portKey, .number port)]

def coreJson (entries : List (JsonValue Int)) : JsonValue Int :=
  .object [(ggcThingArnKey, .string (text "a")), (connectivityInfoArrayKey, .array entries)]

def documentJson (cores : List (JsonValue Int)) : JsonValue Int :=
  .object [(groupArrayKey, .array [.object [(groupIdKey, .string (text "g")),
    (ggcArrayKey, .array cores), (rootCaKey, .array [.string (text "c")])]])]

def oneEntry (port : Int) : ConnectivityEntry := ⟨some (text "i"), some (text "h"), some port, none⟩

def oneGroup (cores : List Core) : Option (List Group) :=
  some [⟨some (text "g"), some cores, some [text "c"]⟩]

theorem isEntry_entryJson (port : Int) : IsEntry (entryJson port) (oneEntry port) :=
  ⟨rfl, .some rfl, .some rfl, .some rfl, .none⟩

theorem isEntry_nil : IsEntry (.object []) ⟨none, none, none, none⟩ :=
  ⟨rfl, .none, .none, .none, .none⟩

theorem isCore_coreJson {xs : List (JsonValue Int)} {es : List ConnectivityEntry}
    (h : List.Forall₂ IsEntry xs es) : IsCore (coreJson xs) ⟨some (text "a"), some es⟩ :=
  ⟨rfl, .some rfl, .some ⟨xs, rfl, h⟩⟩

theorem isDocument_documentJson {xs : List (JsonValue Int)} {cs : List Core}
    (h : List.Forall₂ IsCore xs cs) : IsDocument (documentJson xs) (oneGroup cs) := by
  have hcas : List.Forall₂ IsString [.string (text "c")] [text "c"] := .cons rfl .nil
  have hgroup : IsGroup (.object [(groupIdKey, .string (text "g")), (ggcArrayKey, .array xs),
      (rootCaKey, .array [.string (text "c")])]) ⟨some (text "g"), some cs, some [text "c"]⟩ :=
    ⟨rfl, .some rfl, .some ⟨xs, rfl, h⟩, .some ⟨_, rfl, hcas⟩⟩
  exact ⟨rfl, .some ⟨_, rfl, .cons hgroup .nil⟩⟩

def twoCores : List Core :=
  [⟨some (text "a"), some [oneEntry 8883, oneEntry 443]⟩,
    ⟨some (text "a"), some [oneEntry 8884]⟩]

theorem flattened_iff_two :
    ∃ p, getParsedResponse (documentJson [coreJson [entryJson 8883, entryJson 443],
        coreJson [entryJson 8884]]) [] .empty = .ok p ∧
      Flattened (oneGroup twoCores) [] p := by
  have hdocument := isDocument_documentJson (.cons (isCore_coreJson
    (.cons (isEntry_entryJson 8883) (.cons (isEntry_entryJson 443) .nil)))
    (.cons (isCore_coreJson (.cons (isEntry_entryJson 8884) .nil)) .nil))
  refine (flattened_iff hdocument [] .empty).2 ⟨rfl, rfl, ?_, ?_⟩
  · intro r hr
    have hrow : r ∈ [8883, 443, 8884].map
        (fun port => (⟨text "g", text "a", text "i", text "h", port, []⟩ : Row)) := hr
    obtain ⟨port, hport, rfl⟩ := List.mem_map.1 hrow
    simp only [List.mem_cons, List.not_mem_nil, or_false] at hport
    rcases hport with rfl | rfl | rfl <;> exact ⟨by decide, by decide⟩
  · intro g hg
    have hgroup : g = ⟨some (text "g"), some twoCores, some [text "c"]⟩ := List.mem_singleton.1 hg
    rw [hgroup]
    rfl

/-- The first core has a malformed entry, and the one entry of the second core is read. -/
theorem not_flattened_overrun :
    IsDocument (documentJson [coreJson [.object []], coreJson [entryJson 8883]])
        (oneGroup [⟨some (text "a"), some [⟨none, none, none, none⟩]⟩,
          ⟨some (text "a"), some [oneEntry 8883]⟩]) ∧
      ¬∃ p, getParsedResponse (documentJson [coreJson [.object []], coreJson [entryJson 8883]])
          [] .empty = .ok p ∧
        Flattened (oneGroup [⟨some (text "a"), some [⟨none, none, none, none⟩]⟩,
          ⟨some (text "a"), some [oneEntry 8883]⟩]) [] p := by
  refine ⟨isDocument_documentJson (.cons (isCore_coreJson (.cons isEntry_nil .nil))
    (.cons (isCore_coreJson (.cons (isEntry_entryJson 8883) .nil)) .nil)), ?_⟩
  rintro ⟨p, hp, hflattened⟩
  obtain ⟨added, hadded, hrows⟩ := hflattened.rows
  have hread : p.connectivityInfoList =
      [⟨text "g", text "a", text "i", text "h", 8883, []⟩] := by
    cases hp
    rfl
  rw [hread, List.nil_append] at hadded
  subst hadded
  cases hrows

end DiscoveryResponse

end AwsIotSdk
