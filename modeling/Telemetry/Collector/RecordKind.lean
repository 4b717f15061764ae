import Telemetry.Record
import Telemetry.Storage.Descriptor

/-!
The kinds of records that a collector keeps, with their columns and the tables that hold them. A
kind is kept in one table, or in one table for each of some granularities.
-/

namespace Telemetry.Collector

open Storage

inductive RecordKind where
  | applicationAlarm
  | instanceReferenceAlarm
  | serviceReferenceAlarm
  | instanceMapping
  | cpuMetric
  | instanceHeartBeat
  deriving DecidableEq

/-- How records of a kind are spread over tables. -/
inductive Layout where
  /-- One table for each granularity, all named after a common base. -/
  | levels (base : String) (granularities : List Granularity)
  | single (descriptor : Descriptor)
  deriving DecidableEq

namespace Layout

def descriptors : Layout → List Descriptor
  | levels base granularities =>
      granularities.map fun granularity => .bucketed (granularity.tableName base) granularity
  | single descriptor => [descriptor]

end Layout

namespace RecordKind

/-- All kinds, in the order in which their tables are set up. -/
def all : List RecordKind :=
  [applicationAlarm, instanceReferenceAlarm, serviceReferenceAlarm, instanceMapping, cpuMetric,
    instanceHeartBeat]

/-- The columns that all alarms share. -/
def alarmColumns : List Column :=
  [⟨"id", .string, .nonMerge⟩, ⟨"alarm_content", .string, .coverMerge⟩,
    ⟨"time_bucket", .long, .nonMerge⟩, ⟨"alarm_type", .integer, .nonMerge⟩,
    ⟨"source_value", .integer, .nonMerge⟩]

/-- The columns that name the two instances of a call and their applications. -/
def callColumns : List Column :=
  [⟨"front_application_id", .integer, .nonMerge⟩, ⟨"behind_application_id", .integer, .nonMerge⟩,
    ⟨"front_instance_id", .integer, .nonMerge⟩, ⟨"behind_instance_id", .integer, .nonMerge⟩]

def entity : RecordKind → Entity
  | applicationAlarm => {
      entity := "application_alarm_list"
      timeBucket := "time_bucket"
      columns := alarmColumns ++ [⟨"application_id", .integer, .nonMerge⟩] }
  | instanceReferenceAlarm => {
      entity := "instance_reference_alarm_list"
      timeBucket := "time_bucket"
      columns := alarmColumns ++ callColumns }
  | serviceReferenceAlarm => {
      entity := "service_reference_alarm_list"
      timeBucket := "time_bucket"
      columns := alarmColumns ++ callColumns ++
        [⟨"front_service_id", .integer, .nonMerge⟩, ⟨"behind_service_id", .integer, .nonMerge⟩] }
  | instanceMapping => {
      entity := "instance_mapping"
      timeBucket := "time_bucket"
      columns :=
        [⟨"id", .string, .nonMerge⟩, ⟨"metric_id", .string, .nonMerge⟩,
          ⟨"time_bucket", .long, .nonMerge⟩, ⟨"application_id", .integer, .nonMerge⟩,
          ⟨"instance_id", .integer, .nonMerge⟩, ⟨"address_id", .integer, .nonMerge⟩] }
  | cpuMetric => {
      entity := "cpu_metric"
      timeBucket := "time_bucket"
      columns :=
        [⟨"id", .string, .nonMerge⟩, ⟨"metric_id", .string, .nonMerge⟩,
          ⟨"time_bucket", .long, .nonMerge⟩, ⟨"instance_id", .integer, .nonMerge⟩,
          ⟨"usage_percent", .double, .add⟩, ⟨"times", .long, .add⟩] }
  | instanceHeartBeat => {
      entity := "instance_heart_beat"
      timeBucket := "heart_beat_time"
      columns :=
        [⟨"id", .string, .nonMerge⟩, ⟨"instance_id", .integer, .nonMerge⟩,
          ⟨"heart_beat_time", .long, .coverMerge⟩] }

/-- The name of a kind, which is that of its entity. -/
def name (kind : RecordKind) : String :=
  kind.entity.entity

def ofName? (text : String) : Option RecordKind :=
  all.find? (·.name == text)

/-- The tables of a kind. The rows of instances are created by their registration; heartbeats only
change the time in them.
-/
def layout : RecordKind → Layout
  | applicationAlarm => .levels "application_alarm_list" [.minute, .hour, .day, .month]
  | instanceReferenceAlarm => .single (.bucketed "instance_reference_alarm_list" .minute)
  | serviceReferenceAlarm => .single (.bucketed "service_reference_alarm_list" .minute)
  | instanceMapping => .levels "instance_mapping" [.minute, .hour, .day, .month]
  | cpuMetric => .levels "cpu_metric" Granularity.all
  | instanceHeartBeat => .single (.inPlace "instance" ["heart_beat_time"])

abbrev Carrier (kind : RecordKind) : Type :=
  Record kind.entity

end RecordKind

end Telemetry.Collector
