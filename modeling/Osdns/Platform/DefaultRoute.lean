import Osdns.Framework.Selection
import Osdns.Model.Config

/-!
# The interface of the default route

`select_default` of `platform/linux/route.rs` and of `platform/windows/interface.rs`: of each address
family the default routes of least metric are taken, and all of them together have to point at one
interface.  What the two functions answer is stated through `Selection.OnlyOutput`.
-/

namespace Osdns

open Selection

/-! ## Linux -/

namespace Linux

/-- The address family of a route; the ones other than IPv4 and IPv6 are their numbers. -/
inductive AddressFamily
  | inet
  | inet6
  | other (value : UInt8)
  deriving DecidableEq

/-- The type of a route; the ones that are not unicast are their numbers. -/
inductive RouteType
  | unicast
  | other (value : UInt8)
  deriving DecidableEq

structure RouteNextHop where
  interfaceIndex : UInt32

/-- An attribute of a route.  Those the selection does not look at keep their number only. -/
inductive RouteAttribute
  | table (table : UInt32)
  | priority (metric : UInt32)
  | oif (index : UInt32)
  | multiPath (paths : List RouteNextHop)
  | other (number : UInt16)

structure RouteHeader where
  addressFamily : AddressFamily
  destinationPrefixLength : UInt8
  sourcePrefixLength : UInt8
  tos : UInt8
  table : UInt8
  kind : RouteType

structure RouteMessage where
  header : RouteHeader
  attributes : List RouteAttribute

/-- `RouteHeader::RT_TABLE_MAIN`. -/
def rtTableMain : UInt8 := 254

namespace RouteAttribute

def table? : RouteAttribute → Option UInt32
  | table t => some t
  | _ => none

def priority? : RouteAttribute → Option UInt32
  | priority metric => some metric
  | _ => none

/-- The netlink number of an attribute. -/
def number : RouteAttribute → UInt16
  | oif _ => 4
  | priority _ => 6
  | multiPath _ => 9
  | table _ => 15
  | other number => number

/-- The body of the loop over the attributes of a route: the interfaces so far and `found`. -/
def visit : List UInt32 × Bool → RouteAttribute → List UInt32 × Bool
  | (candidates, _), oif index => (candidates.insert index, true)
  | (candidates, _), multiPath paths =>
      (insertAll candidates (paths.map RouteNextHop.interfaceIndex), !paths.isEmpty)
  | state, _ => state

/-- The interfaces an attribute names. -/
def outputs : RouteAttribute → List UInt32
  | oif index => [index]
  | multiPath paths => paths.map RouteNextHop.interfaceIndex
  | _ => []

end RouteAttribute

namespace RouteMessage

/-- The routing table of a route. -/
def table (route : RouteMessage) : UInt32 :=
  (route.attributes.findSome? RouteAttribute.table?).getD route.header.table.toUInt32

/-- The metric of a route. -/
def metric (route : RouteMessage) : UInt32 :=
  (route.attributes.findSome? RouteAttribute.priority?).getD 0

/-- The filter of `select_default`. -/
def eligible (family : AddressFamily) (route : RouteMessage) : Bool :=
  route.header.addressFamily == family && route.table == rtTableMain.toUInt32 &&
    route.header.destinationPrefixLength == 0 && route.header.sourcePrefixLength == 0 &&
    route.header.tos == 0 && route.header.kind == .unicast

/-- The interfaces a route names. -/
def outputs (route : RouteMessage) : Set UInt32 :=
  {i | ∃ attr ∈ route.attributes, i ∈ attr.outputs}

end RouteMessage

def families : List AddressFamily := [.inet, .inet6]

def noOutput : Error :=
  .invalidConfig
    "default route has no unambiguous output interface; select an interface explicitly"

/-- The interfaces of one route are added. -/
def addRoute (candidates : List UInt32) (route : RouteMessage) : Except Error (List UInt32) :=
  let (candidates, found) := route.attributes.foldl RouteAttribute.visit (candidates, false)
  if found then .ok candidates else .error noOutput

/-- The interfaces of the best routes of one family are added. -/
def addFamily (routes : List RouteMessage) (candidates : List UInt32) (family : AddressFamily) :
    Except Error (List UInt32) :=
  (cheapest RouteMessage.metric (routes.filter (RouteMessage.eligible family))).foldlM addRoute
    candidates

/-- `select_default`.  The `BTreeSet` is a list without duplicates: its order is read only when it
has one member. -/
def selectDefault (routes : List RouteMessage) : Except Error UInt32 := do
  match ← families.foldlM (addFamily routes) [] with
  | [] => throw (.invalidConfig "no unicast default route exists in the main routing table")
  | [i] => return i
  | _ => throw (.invalidConfig
      "main-table default routes select multiple interfaces; select an interface explicitly")

/-! ### What is selected -/

/-- The lowest-metric eligible default routes of each address family. -/
def bestRoutes (routes : List RouteMessage) : Set RouteMessage :=
  {route | ∃ family ∈ families,
    route ∈ Cheapest RouteMessage.metric {r | r ∈ routes ∧ r.eligible family = true}}

/-- A route as the kernel sends it: no attribute comes twice and a list of next hops is not
empty. -/
structure RouteMessage.WellFormed (route : RouteMessage) : Prop where
  once : (route.attributes.map RouteAttribute.number).Nodup
  hops : ∀ paths, .multiPath paths ∈ route.attributes → paths ≠ []

/-- The same route with its attributes in another order. -/
def RouteMessage.Same (route route' : RouteMessage) : Prop :=
  route.header = route'.header ∧ route.attributes.Perm route'.attributes

/-- The same routes in another order, their attributes too. -/
def Reordered (routes routes' : List RouteMessage) : Prop :=
  ∃ middle, List.Forall₂ RouteMessage.Same routes middle ∧ middle.Perm routes'

/-! ### The loop -/

lemma foldl_visit {attributes : List RouteAttribute} {candidates : List UInt32} {found : Bool}
    (hops : ∀ paths, .multiPath paths ∈ attributes → paths ≠ []) :
    attributes.foldl RouteAttribute.visit (candidates, found) =
      (insertAll candidates (attributes.flatMap RouteAttribute.outputs),
        found || !(attributes.flatMap RouteAttribute.outputs).isEmpty) := by
  induction attributes generalizing candidates found with
  | nil => simp [insertAll]
  | cons attr attributes ih =>
      have hrest : ∀ paths, .multiPath paths ∈ attributes → paths ≠ [] :=
        fun paths h => hops paths (List.mem_cons_of_mem _ h)
      rw [List.foldl_cons, List.flatMap_cons, insertAll_append]
      cases attr with
      | oif index => simp [RouteAttribute.visit, RouteAttribute.outputs, ih hrest, insertAll]
      | multiPath paths =>
          obtain ⟨path, paths, rfl⟩ := List.exists_cons_of_ne_nil (hops paths List.mem_cons_self)
          rw [RouteAttribute.visit, ih hrest]
          simp [RouteAttribute.outputs]
      | table t => simp [RouteAttribute.visit, RouteAttribute.outputs, ih hrest, insertAll]
      | priority metric => simp [RouteAttribute.visit, RouteAttribute.outputs, ih hrest, insertAll]
      | other number => simp [RouteAttribute.visit, RouteAttribute.outputs, ih hrest, insertAll]

/-- The interfaces a route names, in the order of its attributes. -/
def RouteMessage.named (route : RouteMessage) : List UInt32 :=
  route.attributes.flatMap RouteAttribute.outputs

lemma RouteMessage.mem_outputs {route : RouteMessage} {i : UInt32} :
    i ∈ route.outputs ↔ i ∈ route.named := by
  simp [outputs, named, List.mem_flatMap]

lemma RouteMessage.outputs_nonempty {route : RouteMessage} :
    route.outputs.Nonempty ↔ route.named ≠ [] := by
  constructor
  · rintro ⟨i, hi⟩
    exact List.ne_nil_of_mem (mem_outputs.mp hi)
  · intro hne
    obtain ⟨i, hi⟩ := List.exists_mem_of_ne_nil _ hne
    exact ⟨i, mem_outputs.mpr hi⟩

/-- `addRoute` adds what the route names, and refuses a route that names nothing. -/
lemma addRoute_eq_ok {route : RouteMessage} {candidates final : List UInt32}
    (h : route.WellFormed) :
    addRoute candidates route = .ok final ↔
      route.outputs.Nonempty ∧ final = insertAll candidates route.named := by
  have hfold : route.attributes.foldl RouteAttribute.visit (candidates, false) =
      (insertAll candidates route.named, !route.named.isEmpty) := foldl_visit h.hops
  rw [RouteMessage.outputs_nonempty]
  unfold addRoute
  rw [hfold]
  by_cases hnil : route.named = []
  · simp [hnil]
  · have hfound : (!route.named.isEmpty) = true := by simpa using hnil
    simp only [hfound, if_true, Except.ok.injEq]
    exact ⟨fun heq => ⟨hnil, heq.symm⟩, fun heq => heq.2.symm⟩

/-- The best routes of one family, in the order of the table. -/
def bestOf (routes : List RouteMessage) (family : AddressFamily) : List RouteMessage :=
  cheapest RouteMessage.metric (routes.filter (RouteMessage.eligible family))

lemma mem_bestOf {routes : List RouteMessage} {family : AddressFamily} {route : RouteMessage} :
    route ∈ bestOf routes family ↔
      route ∈ Cheapest RouteMessage.metric {r | r ∈ routes ∧ r.eligible family = true} := by
  rw [bestOf, mem_cheapest]
  simp only [List.mem_filter]

lemma mem_bestRoutes {routes : List RouteMessage} {route : RouteMessage} :
    route ∈ bestRoutes routes ↔ ∃ family ∈ families, route ∈ bestOf routes family := by
  simp only [mem_bestOf]
  rfl

/-- What the loop over the families finds. -/
lemma foldlM_addFamily_eq_ok {routes : List RouteMessage}
    (h : ∀ route ∈ routes, route.WellFormed) (final : List UInt32) :
    families.foldlM (addFamily routes) [] = .ok final ↔
      (∀ route ∈ bestRoutes routes, route.outputs.Nonempty) ∧
        final = insertAll [] (families.flatMap fun family =>
          (bestOf routes family).flatMap RouteMessage.named) := by
  have step : ∀ family ∈ families, ∀ found new, addFamily routes found family = .ok new ↔
      (∀ route ∈ bestOf routes family, route.outputs.Nonempty) ∧
        new = insertAll found ((bestOf routes family).flatMap RouteMessage.named) :=
    fun family _ found new => foldlM_insertAll fun route hr _ _ =>
      addRoute_eq_ok (h route (mem_bestOf.mp hr).1.1)
  rw [foldlM_insertAll step]
  simp only [mem_bestRoutes]
  exact and_congr_left' ⟨fun hP route ⟨family, hf, hr⟩ => hP family hf route hr,
    fun hP family hf route hr => hP route ⟨family, hf, hr⟩⟩

/-- The interfaces the best routes name, as a set. -/
lemma setOf_mem_named {routes : List RouteMessage} :
    {i | i ∈ insertAll [] (families.flatMap fun family =>
        (bestOf routes family).flatMap RouteMessage.named)} =
      ⋃ route ∈ bestRoutes routes, route.outputs := by
  ext i
  simp only [Set.mem_ofPred_eq, mem_insertAll, List.not_mem_nil, false_or, List.mem_flatMap,
    Set.mem_iUnion₂, mem_bestRoutes, RouteMessage.mem_outputs, exists_prop]
  constructor
  · rintro ⟨family, hf, route, hr, hi⟩
    exact ⟨route, ⟨family, hf, hr⟩, hi⟩
  · rintro ⟨route, ⟨family, hf, hr⟩, hi⟩
    exact ⟨family, hf, route, hr, hi⟩

/-- `select_default` answers the one interface the best routes name. -/
lemma selectDefault_eq_ok {routes : List RouteMessage} {i : UInt32}
    (h : ∀ route ∈ routes, route.WellFormed) :
    selectDefault routes = .ok i ↔ OnlyOutput RouteMessage.outputs (bestRoutes routes) i := by
  have hloop := foldlM_addFamily_eq_ok h
  have hnodup : (insertAll [] (families.flatMap fun family =>
      (bestOf routes family).flatMap RouteMessage.named)).Nodup := nodup_insertAll List.nodup_nil
  unfold OnlyOutput
  rw [← setOf_mem_named, ← eq_singleton_iff hnodup]
  unfold selectDefault
  cases hl : families.foldlM (addFamily routes) [] with
  | error e =>
      constructor
      · intro habs
        cases habs
      · rintro ⟨hP, hone⟩
        have := (hloop [i]).mpr ⟨hP, hone.symm⟩
        rw [hl] at this
        cases this
  | ok final =>
      obtain ⟨hP, hfinal⟩ := (hloop final).mp hl
      rw [← hfinal]
      show (match final with
        | [] => Except.error _
        | [i] => Except.ok i
        | _ => Except.error _) = Except.ok i ↔ _
      rcases final with _ | ⟨j, _ | ⟨k, final⟩⟩
      · simp
      · simpa using fun _ => hP
      · simp

/-! ### Reordering -/

namespace RouteMessage

variable {route route' : RouteMessage} {family : AddressFamily}

lemma Same.symm (h : route.Same route') : route'.Same route := ⟨h.1.symm, h.2.symm⟩

/-- No two attributes of a route have the same number. -/
lemma WellFormed.unique (h : route.WellFormed) {x y : RouteAttribute} (hx : x ∈ route.attributes)
    (hy : y ∈ route.attributes) (hn : x.number = y.number) : x = y :=
  List.inj_on_of_nodup_map h.once hx hy hn

lemma WellFormed.same (h : route.WellFormed) (hs : route.Same route') : route'.WellFormed where
  once := (hs.2.map RouteAttribute.number).nodup_iff.mp h.once
  hops := fun paths hp => h.hops paths (hs.2.mem_iff.mpr hp)

lemma Same.table_eq (h : route.WellFormed) (hs : route.Same route') : route'.table = route.table := by
  unfold table
  rw [hs.1, findSome?_perm hs.2]
  intro x hx y hy hxs hys
  refine h.unique hx hy ?_
  cases x <;> simp [RouteAttribute.table?] at hxs
  cases y <;> simp [RouteAttribute.table?] at hys
  rfl

lemma Same.metric_eq (h : route.WellFormed) (hs : route.Same route') :
    route'.metric = route.metric := by
  unfold metric
  rw [findSome?_perm hs.2]
  intro x hx y hy hxs hys
  refine h.unique hx hy ?_
  cases x <;> simp [RouteAttribute.priority?] at hxs
  cases y <;> simp [RouteAttribute.priority?] at hys
  rfl

lemma Same.eligible_eq (h : route.WellFormed) (hs : route.Same route') :
    route'.eligible family = route.eligible family := by
  simp only [eligible, hs.table_eq h, hs.1]

lemma Same.outputs_eq (hs : route.Same route') : route'.outputs = route.outputs := by
  ext i
  simp only [outputs, Set.mem_ofPred_eq, hs.2.mem_iff]

end RouteMessage

/-- Every route is, up to the order of its attributes, one of the others. -/
def Covers (routes routes' : List RouteMessage) : Prop :=
  ∀ route ∈ routes, ∃ route' ∈ routes', route.Same route'

lemma Reordered.covers {routes routes' : List RouteMessage} (h : Reordered routes routes') :
    Covers routes routes' ∧ Covers routes' routes := by
  obtain ⟨middle, hsame, hperm⟩ := h
  constructor
  · intro route hr
    obtain ⟨n, hn, rfl⟩ := List.getElem_of_mem hr
    have hlen := hsame.length_eq
    exact ⟨middle[n], hperm.mem_iff.mp (List.getElem_mem _), hsame.get hn (hlen ▸ hn)⟩
  · intro route' hr'
    obtain ⟨n, hn, rfl⟩ := List.getElem_of_mem (hperm.mem_iff.mpr hr')
    have hlen := hsame.length_eq
    exact ⟨routes[n], List.getElem_mem _, (hsame.get (hlen ▸ hn) hn).symm⟩

/-- A best route is still best among the reordered routes. -/
lemma bestRoutes_same {routes routes' : List RouteMessage}
    (h : ∀ route ∈ routes, route.WellFormed) (hback : Covers routes' routes)
    {route route' : RouteMessage} (hr : route ∈ bestRoutes routes) (hr' : route' ∈ routes')
    (hs : route.Same route') : route' ∈ bestRoutes routes' := by
  obtain ⟨family, hf, ⟨hmem, hel⟩, hmin⟩ := hr
  have hw := h route hmem
  refine ⟨family, hf, ⟨hr', by rw [hs.eligible_eq hw]; exact hel⟩, ?_⟩
  rintro other' ⟨hother', hel'⟩
  obtain ⟨other, hother, hso⟩ := hback other' hother'
  have hwo := h other hother
  have hsame : other.Same other' := hso.symm
  rw [hs.metric_eq hw, hsame.metric_eq hwo]
  exact hmin other ⟨hother, by rw [← hsame.eligible_eq hwo]; exact hel'⟩

lemma onlyOutput_reordered {routes routes' : List RouteMessage} {i : UInt32}
    (h : ∀ route ∈ routes, route.WellFormed) (hto : Covers routes routes')
    (hback : Covers routes' routes)
    (hone : OnlyOutput RouteMessage.outputs (bestRoutes routes) i) :
    OnlyOutput RouteMessage.outputs (bestRoutes routes') i := by
  have h' : ∀ route ∈ routes', route.WellFormed := fun route' hr' => by
    obtain ⟨route, hr, hs⟩ := hback route' hr'
    exact (h route hr).same hs.symm
  refine hone.of_matching (fun route hr => ?_) (fun route' hr' => ?_)
  · obtain ⟨family, hf, ⟨hmem, _⟩, _⟩ := id hr
    obtain ⟨route', hmem', hs⟩ := hto route hmem
    exact ⟨route', bestRoutes_same h hback hr hmem' hs, hs.outputs_eq⟩
  · obtain ⟨family, hf, ⟨hmem', _⟩, _⟩ := id hr'
    obtain ⟨route, hmem, hs⟩ := hback route' hmem'
    exact ⟨route, bestRoutes_same h' hto hr' hmem hs, hs.symm.outputs_eq⟩

lemma selectDefault_reordered {routes routes' : List RouteMessage} {i : UInt32}
    (h : ∀ route ∈ routes, route.WellFormed) (hre : Reordered routes routes') :
    selectDefault routes' = .ok i ↔ selectDefault routes = .ok i := by
  obtain ⟨hto, hback⟩ := hre.covers
  have h' : ∀ route ∈ routes', route.WellFormed := fun route' hr' => by
    obtain ⟨route, hr, hs⟩ := hback route' hr'
    exact (h route hr).same hs.symm
  rw [selectDefault_eq_ok h, selectDefault_eq_ok h']
  exact ⟨onlyOutput_reordered h' hback hto, onlyOutput_reordered h hto hback⟩

end Linux

/-! ## Windows -/

namespace Windows

/-- A default route: its address family, its metric and the GUID of its interface. -/
structure DefaultRoute where
  family : UInt16
  metric : UInt64
  guid : String

/-- `AF_INET` and `AF_INET6`. -/
def families : List UInt16 := [2, 23]

/-- The interfaces of the best routes of one family are added. -/
def addFamily (routes : List DefaultRoute) (selected : List String) (family : UInt16) :
    List String :=
  insertAll selected
    ((cheapest DefaultRoute.metric (routes.filter fun r => r.family == family)).map
      DefaultRoute.guid)

/-- `select_default`.  The `BTreeSet` is a list without duplicates, as on Linux. -/
def selectDefault (routes : List DefaultRoute) : Except Error String :=
  match families.foldl (addFamily routes) [] with
  | [] => .error (.invalidConfig "no default route is available")
  | [guid] => .ok guid
  | _ => .error (.invalidConfig
      "default routes select multiple interfaces; select an interface explicitly")

/-- The lowest-metric default routes of each address family. -/
def bestRoutes (routes : List DefaultRoute) : Set DefaultRoute :=
  {route | ∃ family ∈ families,
    route ∈ Cheapest DefaultRoute.metric {r | r ∈ routes ∧ r.family = family}}

/-- The interface a route names. -/
def DefaultRoute.outputs (route : DefaultRoute) : Set String := {route.guid}

/-- What the loop over the families collects. -/
lemma setOf_mem_foldl_addFamily (routes : List DefaultRoute) :
    (families.foldl (addFamily routes) []).Nodup ∧
      {guid | guid ∈ families.foldl (addFamily routes) []} =
        ⋃ route ∈ bestRoutes routes, route.outputs := by
  constructor
  · exact nodup_insertAll (nodup_insertAll List.nodup_nil)
  · ext guid
    simp only [families, List.foldl_cons, List.foldl_nil, addFamily, Set.mem_ofPred_eq,
      mem_insertAll, List.not_mem_nil, false_or, List.mem_map, mem_cheapest, List.mem_filter,
      beq_iff_eq, bestRoutes, List.mem_cons, or_false, exists_eq_left,
      Set.mem_iUnion₂, DefaultRoute.outputs, Set.mem_singleton_iff, exists_prop, or_and_right,
      exists_or, eq_comm (a := guid)]

/-- `select_default` answers the one interface the best routes name. -/
lemma selectDefault_eq_ok {routes : List DefaultRoute} {guid : String} :
    selectDefault routes = .ok guid ↔ OnlyOutput DefaultRoute.outputs (bestRoutes routes) guid := by
  obtain ⟨hnodup, hset⟩ := setOf_mem_foldl_addFamily routes
  unfold OnlyOutput selectDefault
  rw [← hset, ← eq_singleton_iff hnodup]
  rcases families.foldl (addFamily routes) [] with _ | ⟨j, _ | ⟨k, final⟩⟩
  · simp
  · have hnames : ∀ route ∈ bestRoutes routes, route.outputs.Nonempty :=
      fun route _ => Set.singleton_nonempty route.guid
    simpa using fun _ => hnames
  · simp

lemma bestRoutes_perm {routes routes' : List DefaultRoute} (h : routes.Perm routes') :
    bestRoutes routes' = bestRoutes routes := by
  simp only [bestRoutes, h.mem_iff]

end Windows

/-! ## Both -/

/-- On both systems the selection succeeds exactly when the lowest-metric default routes of the two
address families all name an interface and it is the same one; the order in which the routes and
their attributes come does not matter. -/
theorem selectDefault_unambiguous :
    (∀ (routes : List Linux.RouteMessage), (∀ route ∈ routes, route.WellFormed) →
      (∀ i, Linux.selectDefault routes = .ok i ↔
        OnlyOutput Linux.RouteMessage.outputs (Linux.bestRoutes routes) i) ∧
      ∀ routes', Linux.Reordered routes routes' → ∀ i,
        Linux.selectDefault routes' = .ok i ↔ Linux.selectDefault routes = .ok i) ∧
    ∀ (routes : List Windows.DefaultRoute),
      (∀ guid, Windows.selectDefault routes = .ok guid ↔
        OnlyOutput Windows.DefaultRoute.outputs (Windows.bestRoutes routes) guid) ∧
      ∀ routes', routes.Perm routes' → ∀ guid,
        Windows.selectDefault routes' = .ok guid ↔ Windows.selectDefault routes = .ok guid := by
  refine ⟨fun routes h => ⟨fun i => Linux.selectDefault_eq_ok h, fun routes' hre i =>
    Linux.selectDefault_reordered h hre⟩, fun routes => ⟨fun guid => Windows.selectDefault_eq_ok,
    fun routes' hperm guid => ?_⟩⟩
  rw [Windows.selectDefault_eq_ok, Windows.selectDefault_eq_ok, Windows.bestRoutes_perm hperm]

/-- A unicast default route of the main table through one interface. -/
def Linux.RouteMessage.default (family : Linux.AddressFamily) (attributes : List Linux.RouteAttribute) :
    Linux.RouteMessage :=
  ⟨⟨family, 0, 0, 0, 254, .unicast⟩, attributes⟩

/-- An IPv4 route of metric 100 and an IPv6 multipath route through interface 2, next to a worse
route through interface 3. -/
theorem selectDefault_unambiguous_mixed :
    let routes : List Linux.RouteMessage :=
      [.default .inet [.oif 3, .priority 200], .default .inet [.priority 100, .oif 2],
        .default .inet6 [.table 254, .multiPath [⟨2⟩, ⟨2⟩]]]
    Linux.selectDefault routes = .ok 2 ∧
      OnlyOutput Linux.RouteMessage.outputs (Linux.bestRoutes routes) 2 := by
  intro routes
  have hw : ∀ route ∈ routes, route.WellFormed := by
    intro route hr
    simp only [routes, List.mem_cons, List.not_mem_nil, or_false] at hr
    rcases hr with rfl | rfl | rfl <;>
      exact ⟨by decide, by simp [Linux.RouteMessage.default]⟩
  have hsel : Linux.selectDefault routes = .ok 2 := by rfl
  exact ⟨hsel, ((selectDefault_unambiguous.1 routes hw).1 2).mp hsel⟩

end Osdns
