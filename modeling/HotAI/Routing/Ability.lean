import HotAI.Routing.Selection

/-! # Choosing a channel from the database (`model/ability.go`)

Without the memory cache a channel is drawn from the `abilities` table. This path asks neither the
breaker nor the limiter, and it takes no slot. -/
namespace HotAI.Routing
open HotAI.Lib

structure Ability where
  group : String
  model : String
  channelId : ℤ
  enabled : Bool
  priority : ℤ
  weight : ℕ
deriving DecidableEq, Repr

structure Database where
  abilities : List Ability
  channels : Table Channel Channel.id
  /-- `channel.GetOtherSettings().AdvancedCustom`. -/
  advancedCustom : ℤ → Option AdvancedCustomConfig

namespace Database

def enabledAbilities (db : Database) (group model : String) : List Ability :=
  db.abilities.filter fun a => a.group = group ∧ a.model = model ∧ a.enabled

/-- `SELECT DISTINCT(priority) … ORDER BY priority DESC`. -/
def priorities (db : Database) (group model : String) : List ℤ :=
  ((db.enabledAbilities group model).map Ability.priority).dedup.insertionSort (· ≥ ·)

def getPriority (db : Database) (group model : String) (retry : ℕ) : Except String ℤ :=
  let priorities := db.priorities group model
  if priorities.length = 0 then .error "数据库一致性被破坏"
  else if priorities.length ≤ retry then .ok (priorities.getD (priorities.length - 1) 0)
  else .ok (priorities.getD retry 0)

/-- The rows of `getChannelQuery`; the first attempt compares with `MAX(priority)`, which is null without rows. -/
def getChannelQuery (db : Database) (group model : String) (retry : ℕ) : Except String (List Ability) :=
  let rows := db.enabledAbilities group model
  if retry ≠ 0 then (db.getPriority group model retry).map fun p => rows.filter (·.priority = p)
  else match (rows.map Ability.priority).max? with
    | none => .ok []
    | some p => .ok (rows.filter (·.priority = p))

def filterAbilitiesByRequestPath (db : Database) (abilities : List Ability) (requestPath : String) : List Ability :=
  if requestPath == "" then abilities
  else abilities.filter fun ability => match db.channels.get ability.channelId with
    | none => true
    | some channel =>
        if channel.type ≠ channelTypeAdvancedCustom then true
        else match db.advancedCustom ability.channelId with
          | some config => config.supportsPath requestPath
          | none => false

/-- The draw loop; a draw that hits no row leaves the zero id. -/
def drawAbility : List Ability → ℤ → ℤ
  | [], _ => 0
  | ability :: rest, weight =>
      let weight := weight - (ability.weight + 10)
      if weight ≤ 0 then ability.channelId else drawAbility rest weight

/-- `GetChannel`. A drawn id without a row in `channels` comes back together with the error. -/
def getChannel (db : Database) (group model : String) (retry : ℕ) (requestPath : String) (draw : ℕ) : Pick :=
  match db.getChannelQuery group model retry with
  | .error err => (none, some err)
  | .ok rows =>
      let sorted := rows.insertionSort fun a b => b.weight ≤ a.weight
      let abilities := db.filterAbilitiesByRequestPath sorted requestPath
      if abilities = [] then (none, none)
      else
        let weightSum := (abilities.map fun a => a.weight + 10).sum
        let channelId := drawAbility abilities (draw % weightSum : ℕ)
        match db.channels.get channelId with
        | some channel => (some channel, none)
        | none => (some ⟨channelId, 0, none, none, 0, none, none⟩, some "record not found")

end Database

/-- What `GetRandomSatisfiedChannel` finds outside the guards: synced cache, database, scores and random number. -/
structure View where
  cache : ChannelCache
  database : Database
  scoring : Scoring
  draw : ℕ

def View.getRandomSatisfiedChannel {σ : Type*} (view : View) (memoryCacheEnabled : Bool)
    (g : Guards σ) (group model : String) (retry : ℕ) (requestPath : String) (s : σ) : Pick × σ :=
  if !memoryCacheEnabled then
    (view.database.getChannel group model retry requestPath view.draw, s)
  else Routing.getRandomSatisfiedChannel g view.scoring view.cache group model retry requestPath
    view.draw s

end HotAI.Routing
