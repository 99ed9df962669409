import WebSocketHft.Model.Process

/-! # The public interface

The remaining setters of `websocket.h`, and the interface as a type of calls that
an application makes one after the other. -/

namespace WebSocketHft

/-- `websocket_set_on_metrics`; `none` clears the callback. -/
def websocketSetOnMetrics (ws : WebSocket) (callback : Option UserData) : WebSocket :=
  { ws with onMetrics := callback }

/-- `websocket_set_on_health`. -/
def websocketSetOnHealth (ws : WebSocket) (callback : Option UserData) : WebSocket :=
  { ws with onHealth := callback }

/-- `websocket_set_log_callback`. -/
def websocketSetLogCallback (ws : WebSocket) (callback : Option UserData) : WebSocket :=
  { ws with logCallback := callback }

/-- `websocket_set_reconnect_config`. -/
def websocketSetReconnectConfig (ws : WebSocket) (config : WSReconnectConfig) : WebSocket :=
  let nextBackoffMs :=
    if ws.reconnectState.reconnectAttempts = 0 then config.initialBackoffMs
    else ws.reconnectState.nextBackoffMs
  { ws with
    reconnectConfig := config
    reconnectState := { ws.reconnectState with nextBackoffMs := nextBackoffMs } }

/-- A call of the public interface with what the surroundings answer to it. -/
inductive PublicCall where
  | setOnMessage (callback : Bool) (userData : UserData)
  | setOnError (callback : Bool) (userData : UserData)
  | setOnMetrics (callback : Option UserData)
  | setOnHealth (callback : Option UserData)
  | setLogCallback (callback : Option UserData)
  | setReconnectConfig (config : WSReconnectConfig)
  | setHeartbeatConfig (config : WSHeartbeatConfig)
  | getMetrics
  | resetMetrics
  | connect (url : List UInt8) (answers : ConnectAnswers)
  | process (events : Option (List KEvent))
  | send (data : Option (List UInt8)) (isText : Bool)
  | close

/-- The connection after a call. -/
def PublicCall.run (env : Env) (ws : WebSocket) : PublicCall → WebSocket
  | .setOnMessage callback userData => websocketSetOnMessage ws callback userData
  | .setOnError callback userData => websocketSetOnError ws callback userData
  | .setOnMetrics callback => websocketSetOnMetrics ws callback
  | .setOnHealth callback => websocketSetOnHealth ws callback
  | .setLogCallback callback => websocketSetLogCallback ws callback
  | .setReconnectConfig config => websocketSetReconnectConfig ws config
  | .setHeartbeatConfig config => websocketSetHeartbeatConfig ws config
  | .getMetrics => (websocketGetMetrics ws (env ws.tick).now (env ws.tick).allocated).2.pass
  | .resetMetrics => websocketResetMetrics ws
  | .connect url answers => (websocketConnect env ws url answers).2
  | .process events => (websocketProcess env ws events).2
  | .send data isText => (websocketSend env ws data isText).2
  | .close => websocketClose ws

/-- The connection after the calls, from `websocket_create` on. -/
def runCalls (env : Env) (allocated : Bool) (calls : List PublicCall) : WebSocket :=
  calls.foldl (PublicCall.run env) (websocketCreate allocated)

end WebSocketHft
