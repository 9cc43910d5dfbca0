import AaaServer.Schema.AcctRow

open sql

namespace aaa_server

/-- The values of `Acct-Status-Type` that select a section of `accounting.type`. -/
inductive AcctStatusType where
  | start
  | interim_update
  | stop
  | accounting_on
  deriving DecidableEq

/-- An Accounting-Request as the queries see it: the expansions of their
    templates, texts being escaped already. The integer attributes are 32 bits
    wide; an absent one is `none`, an absent text is empty. -/
structure AcctPacket where
  acct_status_type : AcctStatusType
  acct_session_id : Text := []
  acct_unique_session_id : Text := []
  sql_user_name : Text := []
  realm : Text := []
  nas_identifier : Text := []
  nas_ip_address : Text := []
  nas_port_id : Text := []
  nas_port_type : Text := []
  event_timestamp_epoch : UInt32
  acct_session_time : Option UInt32 := none
  acct_authentic : Text := []
  connect_info : Text := []
  acct_input_gigawords : Option UInt32 := none
  acct_input_octets : Option UInt32 := none
  acct_output_gigawords : Option UInt32 := none
  acct_output_octets : Option UInt32 := none
  called_station_id : Text := []
  calling_station_id : Text := []
  acct_terminate_cause : Text := []
  service_type : Text := []
  framed_protocol : Text := []
  framed_ip_address : Text := []
  framed_ipv6_address : Text := []
  framed_ipv6_prefix : Text := []
  framed_interface_id : Text := []
  delegated_ipv6_prefix : Text := []

/-- `'%{%{Gigawords}:-0}' << 32 | '%{%{Octets}:-0}'`. -/
def octets (gigawords octets : Option UInt32) : Nat :=
  (gigawords.getD 0).toNat <<< 32 ||| (octets.getD 0).toNat

/-- `FROM_UNIXTIME`, which is NULL outside the range of a timestamp. -/
def from_unixtime (epoch : Int) : Option Datetime :=
  if 0 ≤ epoch ∧ epoch ≤ INT_MAX then some epoch else none

namespace AcctPacket

variable (packet : AcctPacket)

def input : Nat := octets packet.acct_input_gigawords packet.acct_input_octets

def output : Nat := octets packet.acct_output_gigawords packet.acct_output_octets

/-- `%{%{Acct-Session-Time}:-NULL}`. -/
def session_time : Option Int := packet.acct_session_time.map fun seconds => (seconds.toNat : Int)

def epoch : Int := packet.event_timestamp_epoch.toNat

/-- `${event_timestamp}`. -/
def event_timestamp : Option Datetime := from_unixtime packet.epoch

/-- The values that the `INSERT`s of the start, interim-update and stop sections
    give for the same columns. -/
def values : AcctRow where
  acctsessionid := packet.acct_session_id
  acctuniqueid := packet.acct_unique_session_id
  username := packet.sql_user_name
  realm := packet.realm
  nasidentifier := packet.nas_identifier
  nasipaddress := packet.nas_ip_address
  nasportid := some packet.nas_port_id
  nasporttype := some packet.nas_port_type
  acctupdatetime := packet.event_timestamp
  acctauthentic := some packet.acct_authentic
  calledstationid := packet.called_station_id
  callingstationid := packet.calling_station_id
  servicetype := some packet.service_type
  framedprotocol := some packet.framed_protocol
  framedipaddress := packet.framed_ip_address
  framedipv6address := packet.framed_ipv6_address
  framedipv6prefix := packet.framed_ipv6_prefix
  framedinterfaceid := packet.framed_interface_id
  delegatedipv6prefix := packet.delegated_ipv6_prefix

/-- `FROM_UNIXTIME(${event_timestamp_epoch} - %{%{Acct-Session-Time}:-0})`. -/
def start_time : Option Datetime := from_unixtime (packet.epoch - packet.session_time.getD 0)

def start_values : AcctRow := { packet.values with
  acctstarttime := packet.event_timestamp
  acctsessiontime := some 0
  connectinfo_start := some packet.connect_info
  connectinfo_stop := some []
  acctinputoctets := some 0
  acctoutputoctets := some 0 }

def interim_update_values : AcctRow := { packet.values with
  acctstarttime := packet.start_time
  acctsessiontime := packet.session_time
  connectinfo_start := some packet.connect_info
  connectinfo_stop := some []
  acctinputoctets := some packet.input
  acctoutputoctets := some packet.output }

def stop_values : AcctRow := { packet.values with
  acctstarttime := packet.start_time
  acctstoptime := packet.event_timestamp
  acctsessiontime := packet.session_time
  connectinfo_start := some []
  connectinfo_stop := some packet.connect_info
  acctinputoctets := some packet.input
  acctoutputoctets := some packet.output
  acctterminatecause := packet.acct_terminate_cause }

end AcctPacket

end aaa_server
